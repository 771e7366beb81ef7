import QuantPlatform.Toss.RateLimit
import QuantPlatform.Toss.Retry

namespace QuantPlatform
namespace Toss

open QuantPlatform.Core Effects

/-- What `parse` raises from pydantic's complaint, which it does not repeat. -/
def parseFailure (exc : ValidationError) : Raised where
  cls := .app .dataValidationError
  text := "Toss token response did not match the PROVISIONAL " ++
    "(unverified) OAuth2 shape assumed by " ++
    "ProvisionalTokenResponseDto - see app/toss/token_parser.py " ++
    "and docs/architecture/0007-toss-api-integration.md. This " ++
    "may mean the assumed schema itself is wrong, not " ++
    "necessarily that the request failed."
  cause := some { cls := .other (.other "pydantic.ValidationError"), text := exc.text }

/-- `ProvisionalTokenResponseParser.parse(raw_body)`. -/
def parseToken (env : Env) (rawBody : List UInt8) : Except Raised ParsedToken :=
  match env.tokenDto rawBody with
  | .ok dto => .ok { accessToken := dto.accessToken, expiresIn := dto.expiresIn }
  | .error exc => .error (parseFailure exc)

theorem parseToken_of_error {env : Env} {rawBody : List UInt8} {exc : ValidationError}
    (h : env.tokenDto rawBody = .error exc) :
    parseToken env rawBody = .error (parseFailure exc) := by
  unfold parseToken
  rw [h]

theorem parseToken_error {env : Env} {rawBody : List UInt8} {e : Raised}
    (h : parseToken env rawBody = .error e) : e.IsAppError := by
  unfold parseToken at h
  split at h
  · cases h
  · cases h
    exact Raised.isAppError_of_app rfl

structure TossOAuthClient where
  clientId : String
  clientSecret : String
  http : BaseApiClient
  retry : StatusRetry := {}
  throttle : GroupThrottle
  expiryLeewaySeconds : ℚ := 30

/-- What a datetime computation returns or raises. -/
def dated (x : Except Exn Instant) : Action Instant :=
  match x with
  | .ok t => return t
  | .error exn => raiseOther (exn, "date value out of range")

theorem triple_dated {x : Except Exn Instant} {P : State → Prop} {Q : Instant → State → Prop}
    {E : Raised → State → Prop} (hok : ∀ t, x = .ok t → ∀ s, P s → Q t s)
    (herror : ∀ exn, x = .error exn → ∀ s, P s →
      E { cls := .other exn, text := "date value out of range" } s) :
    Program.Triple P (dated x) Q E := by
  cases x with
  | ok t => exact Program.triple_pure (hok t rfl)
  | error exn => exact triple_raiseOther (herror exn rfl)

namespace TossOAuthClient

def tokenPath : String := "/oauth2/token"

/-- Token requests are all let through in the `AUTH` group and carry no token. -/
def errand : Errand := { party := .oauth, group := .auth, token := none }

/-- One `POST /oauth2/token`. -/
def post (env : Env) (client : TossOAuthClient) : Action Response :=
  client.http.request env errand "POST" tokenPath none []
    (some [("grant_type", "client_credentials"), ("client_id", client.clientId),
      ("client_secret", client.clientSecret)])

/-- `_fetch_token()`. -/
def fetchToken (env : Env) (client : TossOAuthClient) : Action AccessToken := do
  client.throttle.wait env .oauth .auth
  let response ← client.retry.sendWithStatusRetry (client.post env)
  Program.lift (raiseForStatus env response "POST /oauth2/token")
  let parsed ← Program.lift (parseToken env response.content)
  let now ← readClock env (.issued parsed)
  let expiresAt ← dated (now.plusSeconds parsed.expiresIn)
  return { value := parsed.accessToken, expiresAt }

/-- `_is_expiring(token)`. -/
def isExpiring (env : Env) (client : TossOAuthClient) (token : AccessToken) : Action Bool := do
  let now ← readClock env (.checked token)
  let limit ← dated (token.expiresAt.minusSeconds client.expiryLeewaySeconds)
  return decide (limit ≤ now)

/-- Fetches a token and caches it. -/
def renew (env : Env) (client : TossOAuthClient) : Action AccessToken := do
  let token ← client.fetchToken env
  Program.modify fun s : State => { s with cachedToken := some token }
  return token

/-- `get_valid_token()`, with the expiry it is cached under beside its value. -/
def validToken (env : Env) (client : TossOAuthClient) : Action AccessToken := do
  let cached ← Program.read fun s : State => s.cachedToken
  match cached with
  | none => client.renew env
  | some token => do
      let expiring ← client.isExpiring env token
      if expiring then client.renew env else return token

/-- By what holds before, what holds of a token that is fetched and stays when it is
cached, and what holds of a cached one that is found not to expire yet. -/
theorem triple_validToken {env : Env} {client : TossOAuthClient} {I : State → Prop}
    {Q : AccessToken → State → Prop} {E : Raised → State → Prop}
    (hfetch : Program.Triple I (client.fetchToken env) Q E)
    (hcached : ∀ token s, Q token s → Q token { s with cachedToken := some token })
    (hexpiring : ∀ token, Program.Triple I (client.isExpiring env token)
      (fun expiring s => I s ∧ (¬ expiring = true → Q token s)) E) :
    Program.Triple I (client.validToken env) Q E := by
  have hrenew : Program.Triple I (client.renew env) Q E := by
    refine Program.triple_bind Q hfetch fun token => ?_
    refine Program.triple_bind (fun _ => Q token) ?_ fun _ => ?_
    · exact Program.triple_modify (hcached token)
    · exact Program.triple_pure fun _ hs => hs
  refine Program.triple_bind (fun _ => I) (Program.triple_read fun _ hs => hs) fun cached => ?_
  cases cached with
  | none => exact hrenew
  | some token =>
    refine Program.triple_bind _ (hexpiring token) fun expiring => ?_
    refine Program.triple_ite (fun _ => ?_) fun hvalid => ?_
    · exact hrenew.conseq (fun _ hs => hs.1) (fun _ _ hs => hs) fun _ _ hs => hs
    · exact Program.triple_pure fun _ hs => hs.2 hvalid

def getValidToken (env : Env) (client : TossOAuthClient) : Action String := do
  let token ← client.validToken env
  return token.value

/-- `invalidate()`. -/
def invalidate : Action Unit :=
  Program.modify fun s : State => { s with cachedToken := none }

end TossOAuthClient

end Toss
end QuantPlatform
