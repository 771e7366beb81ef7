import QuantPlatform.Toss.Auth

namespace QuantPlatform
namespace Toss

open QuantPlatform.Core Effects

/-- `DEFAULT_ENDPOINT_GROUPS`. -/
def defaultEndpointGroups : List (String × RateLimitGroup) :=
  [("/api/v1/orderbook", .stock), ("/api/v1/prices", .stock), ("/api/v1/trades", .stock),
    ("/api/v1/price-limits", .stock), ("/api/v1/candles", .stock), ("/api/v1/stocks", .stock),
    ("/api/v1/accounts", .account), ("/api/v1/holdings", .asset), ("/api/v1/orders", .account),
    ("/api/v1/buying-power", .account), ("/api/v1/sellable-quantity", .account),
    ("/api/v1/commissions", .account)]

def defaultGroupFor (path : String) : RateLimitGroup :=
  match defaultEndpointGroups.find? fun known =>
      path = known.1 || (known.1 ++ "/").toList.isPrefixOf path.toList with
  | some known => known.2
  | none => .account

structure TossResponseEnvelope where
  payload : PyValue
  receivedAt : Instant
  deriving Repr

structure TossRestClient where
  oauth : TossOAuthClient
  accountSeq : Option String
  http : BaseApiClient
  retry : StatusRetry := {}
  throttle : GroupThrottle

namespace TossRestClient

/-- The header of an account call, whose configuration the caller has checked. -/
def accountHeader (client : TossRestClient) (requiresAccount : Bool) :
    Action (List (String × String)) :=
  match requiresAccount, client.accountSeq with
  | false, _ => return []
  | true, some accountSeq => return [("X-Tossinvest-Account", accountSeq)]
  | true, none => raiseOther (.other "AssertionError", "")

theorem accountHeader_keeps {client : TossRestClient} {requiresAccount : Bool}
    {I : State → Prop} {E : Raised → State → Prop}
    (hmissing : requiresAccount = true ∧ client.accountSeq = none →
      ∀ s, I s → E { cls := .other (.other "AssertionError"), text := "" } s) :
    Program.Triple I (client.accountHeader requiresAccount) (fun _ => I) E := by
  unfold accountHeader
  split
  · exact Program.triple_pure fun _ hs => hs
  · exact Program.triple_pure fun _ hs => hs
  · next hnone => exact triple_raiseOther (hmissing ⟨rfl, hnone⟩)

/-- One `GET`. -/
def getOnce (env : Env) (client : TossRestClient) (path : String)
    (params : Option (List (String × PyValue))) (group : RateLimitGroup) (token : AccessToken)
    (account : List (String × String)) : Action Response :=
  client.http.request env { party := .rest, group, token := some token } "GET" path params
    (("Authorization", "Bearer " ++ token.value) :: account) none

/-- `_send`. -/
def send (env : Env) (client : TossRestClient) (path : String)
    (params : Option (List (String × PyValue))) (requiresAccount : Bool)
    (group : RateLimitGroup) : Action Response := do
  client.throttle.wait env .rest group
  let token ← client.oauth.validToken env
  let account ← client.accountHeader requiresAccount
  client.retry.sendWithStatusRetry (client.getOnce env path params group token account)

/-- The round after an answer, if it was a 401. -/
def resend (env : Env) (client : TossRestClient) (path : String)
    (params : Option (List (String × PyValue))) (requiresAccount : Bool)
    (group : RateLimitGroup) (response : Response) : Action Response :=
  if response.statusCode = 401 then do
    TossOAuthClient.invalidate
    client.send env path params requiresAccount group
  else return response

/-- The envelope of a 2xx answer. -/
def envelope (env : Env) (response : Response) : Action TossResponseEnvelope :=
  match env.json response.content with
  | some payload => do
      let receivedAt ← readClock env (.received response)
      return { payload, receivedAt }
  | none => raiseOther (.valueError, "Expecting value")

/-- `get(path, params=, requires_account=, group=)`. -/
def get (env : Env) (client : TossRestClient) (path : String)
    (params : Option (List (String × PyValue))) (requiresAccount : Bool)
    (group : Option RateLimitGroup) : Action TossResponseEnvelope :=
  if requiresAccount = true ∧ client.accountSeq = none then
    Program.raise {
      cls := .app .configError
      text := path ++ " requires an account (X-Tossinvest-Account) but no " ++
        "account_seq was configured on this TossRestClient" }
  else do
    let resolvedGroup := group.getD (defaultGroupFor path)
    let first ← client.send env path params requiresAccount resolvedGroup
    let response ← client.resend env path params requiresAccount resolvedGroup first
    Program.lift (raiseForStatus env response ("GET " ++ path))
    envelope env response

/-- What a round, forgetting the token and the dating of an envelope keep, a call keeps. -/
theorem get_keeps {env : Env} {client : TossRestClient} {path : String}
    {params : Option (List (String × PyValue))} {requiresAccount : Bool}
    {group : Option RateLimitGroup} {I : State → Prop}
    (hsend : ∀ group, Program.Triple I (client.send env path params requiresAccount group)
      (fun _ => I) (fun _ => I))
    (hforgotten : ∀ s : State, I s → I { s with cachedToken := none })
    (hreceived : ∀ s response, I s → I (s.logged (.received response))) :
    Program.Triple I (client.get env path params requiresAccount group) (fun _ => I)
      (fun _ => I) := by
  refine Program.triple_ite (fun _ => Program.triple_raise fun _ hs => hs) fun _ => ?_
  refine Program.triple_bind _ (hsend _) fun first => ?_
  refine Program.triple_bind (fun _ => I) ?_ fun response => ?_
  · refine Program.triple_ite (fun _ => ?_) fun _ => Program.triple_pure fun _ hs => hs
    exact Program.triple_bind (fun _ => I) (Program.triple_modify hforgotten) fun _ => hsend _
  refine Program.triple_bind (fun _ => I) ?_ fun _ => ?_
  · exact Program.triple_lift (fun _ _ _ hs => hs) fun _ _ _ hs => hs
  · unfold envelope
    split
    · exact Program.triple_bind (fun _ => I) (triple_readClock fun s hs => hreceived s response hs)
        fun _ => Program.triple_pure fun _ hs => hs
    · exact triple_raiseOther fun _ hs => hs

/-- The calls a client can be asked for. -/
def calls (env : Env) (client : TossRestClient) : Set (Action TossResponseEnvelope) :=
  { call | ∃ path params requiresAccount group,
      call = client.get env path params requiresAccount group }

end TossRestClient

/-- The bytes of an ASCII text. -/
def bytes (text : String) : List UInt8 := text.toList.map fun c => UInt8.ofNat c.toNat

def tokenBody (lifetime : Nat) : List UInt8 :=
  bytes ("\x7b\"access_token\": \"tok-1\", \"expires_in\": " ++ toString lifetime ++ "\x7d")

def emptyBody : List UInt8 := bytes "\x7b\"result\": []\x7d"

def answered (statusCode : Nat) (headers : List (String × String)) (content : List UInt8) :
    Outcome :=
  .response { statusCode, headers, content }

/-- pydantic on the one payload it is shown, and its complaint about any other. -/
def acceptEmpty {α : Type} (dto : α) : PyValue → Except ValidationError α
  | .dict [("result", .list [])] => .ok dto
  | _ => .error { reasons := [("result", "missing")], text := "1 validation error" }

/-- Surroundings that know the two bodies above. -/
def sampleEnv (monotonic : Nat → ℚ) (now : Nat → Instant) (lifetime : Nat)
    (transport : Nat → Outcome) : Env where
  monotonic := monotonic
  now := now
  transport := transport
  unsendable _ := none
  json body :=
    if body = emptyBody then some (.dict [("result", .list [])])
    else if body = tokenBody lifetime then
      some (.dict [("access_token", .str "tok-1"), ("expires_in", .int lifetime)])
    else none
  tokenDto body :=
    if body = tokenBody lifetime then .ok { accessToken := "tok-1", expiresIn := lifetime }
    else .error { reasons := [("access_token", "missing")], text := "1 validation error" }
  pricesDto := acceptEmpty { result := [] }
  orderbookDto _ := .error { reasons := [("result", "missing")], text := "1 validation error" }
  tradesDto := acceptEmpty { result := [] }
  candlesDto _ := .error { reasons := [("result", "missing")], text := "1 validation error" }
  rawEnvelopeDto
    | .dict entries =>
        match entries.lookup "result" with
        | some result => .ok { result }
        | none => .error { reasons := [("result", "missing")], text := "1 validation error" }
    | _ => .error { reasons := [("", "model_type")], text := "1 validation error" }

/-- The gateway's client as the factory builds it. -/
def sampleClient : TossRestClient :=
  let http : BaseApiClient :=
    { baseUrl := "https://openapi.tossinvest.com", policy := { retryStatusCodes := [] } }
  let throttle := GroupThrottle.create fun _ => none
  { oauth := { clientId := "id", clientSecret := "secret", http, throttle }
    accountSeq := some "1", http, throttle }

/-- The errand of a sample account call. -/
def sampleErrand : Errand :=
  { party := .rest, group := .account, token := some { value := "tok-1", expiresAt := 3600000000 } }

def sampleCall (env : Env) : Action TossResponseEnvelope :=
  sampleClient.get env "/api/v1/accounts" none true none

theorem reaches_sampleCall (env : Env) :
    Program.Reaches (sampleClient.calls env) State.fresh (sampleCall env State.fresh).2 :=
  Relation.ReflTransGen.single ⟨sampleCall env, ⟨_, _, _, _, rfl⟩, rfl⟩

end Toss
end QuantPlatform
