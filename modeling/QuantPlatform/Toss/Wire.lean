import QuantPlatform.Toss.Factory
import QuantPlatform.Toss.Grants

namespace QuantPlatform
namespace Toss

open QuantPlatform.Core Effects

def marketPaths : List String :=
  ["/api/v1/prices", "/api/v1/orderbook", "/api/v1/trades", "/api/v1/candles",
    "/api/v1/price-limits", "/api/v1/stocks"]

def accountPaths : List String :=
  ["/api/v1/accounts", "/api/v1/holdings", "/api/v1/orders", "/api/v1/buying-power",
    "/api/v1/sellable-quantity", "/api/v1/commissions"]

/-- An account endpoint, the status of one order among them. -/
def IsAccountPath (path : String) : Prop :=
  path ∈ accountPaths ∨ ∃ orderId, path = "/api/v1/orders/" ++ orderId

/-- A read with a token: of the market without the account, and of the account with it. -/
structure IsRead (client : TossRestClient) (token : AccessToken) (req : Request) : Prop where
  method : req.method = "GET"
  data : req.data = none
  endpoint : ∃ path, req.url = client.http.url path ∧
    (path ∈ marketPaths ∧ req.headers = [("Authorization", "Bearer " ++ token.value)] ∨
      IsAccountPath path ∧ ∃ accountSeq, client.accountSeq = some accountSeq ∧
        req.headers = [("Authorization", "Bearer " ++ token.value),
          ("X-Tossinvest-Account", accountSeq)])

/-- After the log, the client may ask for the request. -/
def Permitted (env : Env) (client : TossRestClient) (log : List Event) (errand : Errand)
    (req : Request) : Prop :=
  errand = TossOAuthClient.errand ∧ IsTokenRequest client.oauth req ∨
    ∃ token, errand.party = .rest ∧ errand.token = some token ∧ Granted env 0 log token ∧
      IsRead client token req

/-- Every request was permitted when it was asked for. -/
def OnlyPermitted (env : Env) (client : TossRestClient) (log : List Event) : Prop :=
  ∀ n errand req, seen Event.attempting log n = some (errand, req) →
    Permitted env client (log.take n) errand req

theorem onlyPermitted_nil {env : Env} {client : TossRestClient} : OnlyPermitted env client [] := by
  intro n errand req hseen
  rw [seen_nil] at hseen
  cases hseen

theorem OnlyPermitted.append {env : Env} {client : TossRestClient} {log : List Event} {e : Event}
    (h : OnlyPermitted env client log)
    (he : ∀ errand req, e.attempting = some (errand, req) →
      Permitted env client log errand req) : OnlyPermitted env client (log ++ [e]) := by
  intro n errand req hseen
  rcases seen_append_eq_some_iff.mp hseen with hold | ⟨rfl, hnew⟩
  · rw [List.take_append_of_le_length (lt_length_of_seen hold).le]
    exact h n errand req hold
  · rw [List.take_left]
    exact he errand req hnew

/-! ## The invariant -/

/-- What has been asked for was permitted, and the token in the cache was granted. -/
structure Guarded (env : Env) (client : TossRestClient) (s : State) : Prop where
  onlyPermitted : OnlyPermitted env client s.log
  cached : ∀ token, s.cachedToken = some token → Granted env 0 s.log token

section Programs

variable {env : Env} {client : TossRestClient}

theorem guarded_fresh : Guarded env client State.fresh where
  onlyPermitted := onlyPermitted_nil
  cached token h := by cases h

theorem Guarded.logged {s : State} {e : Event} (h : Guarded env client s)
    (he : ∀ errand req, e.attempting = some (errand, req) →
      Permitted env client s.log errand req) : Guarded env client (s.logged e) where
  onlyPermitted := h.onlyPermitted.append he
  cached token htoken := (h.cached token htoken).append e

/-- An event that is no request. -/
theorem Guarded.quiet {s : State} {e : Event} (h : Guarded env client s)
    (he : e.attempting = none) : Guarded env client (s.logged e) := by
  refine h.logged fun errand req hnew => ?_
  rw [he] at hnew
  cases hnew

theorem guarded_keptByFetch : KeptByFetch client.oauth (Guarded env client) where
  quiet _ _ hquiet _ hs := hs.quiet hquiet
  asked s e req he htoken hs := by
    refine hs.logged fun errand req' hnew => ?_
    rw [he] at hnew
    cases hnew
    exact Or.inl ⟨rfl, htoken⟩
  noted _ _ _ _ hs := ⟨hs.onlyPermitted, hs.cached⟩

/-- The token at hand was granted. -/
def Bearing (env : Env) (client : TossRestClient) (token : AccessToken) (s : State) : Prop :=
  Guarded env client s ∧ Granted env 0 s.log token

theorem Bearing.quiet {token : AccessToken} {s : State} {e : Event} (h : Bearing env client token s)
    (he : e.attempting = none) : Bearing env client token (s.logged e) :=
  ⟨h.1.quiet he, h.2.append e⟩

theorem renew_guarded :
    Program.Triple (Guarded env client) (client.oauth.renew env)
      (fun token => Bearing env client token) (fun _ => Guarded env client) := by
  refine Program.triple_bind (fun token => Bearing env client token) ?_ fun token => ?_
  · exact (TossOAuthClient.fetchToken_grants guarded_keptByFetch).conseq
      (fun s hs => ⟨hs, Nat.zero_le _⟩) (fun _ _ hs => ⟨hs.1.1, hs.2⟩) fun _ _ hs => hs
  refine Program.triple_bind (fun _ => Bearing env client token) ?_
    fun _ => Program.triple_pure fun _ hs => hs
  refine Program.triple_modify fun s hs => ⟨⟨hs.1.onlyPermitted, fun cached hcached => ?_⟩, hs.2⟩
  cases hcached
  exact hs.2

theorem validToken_guarded :
    Program.Triple (Guarded env client) (client.oauth.validToken env)
      (fun token => Bearing env client token) (fun _ => Guarded env client) := by
  refine Program.triple_bind (fun cached s => Guarded env client s ∧ s.cachedToken = cached)
    (Program.triple_read fun _ hs => ⟨hs, rfl⟩) fun cached => ?_
  cases cached with
  | none => exact renew_guarded.conseq (fun _ hs => hs.1) (fun _ _ hs => hs) fun _ _ hs => hs
  | some token =>
    refine Program.triple_bind (fun _ => Bearing env client token) ?_ fun expiring => ?_
    · refine Program.triple_bind (fun _ => Bearing env client token) ?_ fun now => ?_
      · exact triple_readClock fun s hs =>
          ⟨hs.1.quiet rfl, (hs.1.cached token hs.2).append _⟩
      refine Program.triple_bind (fun _ => Bearing env client token) ?_
        fun limit => Program.triple_pure fun _ hs => hs
      exact triple_dated (fun _ _ _ hs => hs) fun _ _ _ hs => hs.1
    · refine Program.triple_ite (fun _ => ?_) fun _ => Program.triple_pure fun _ hs => hs
      exact renew_guarded.conseq (fun _ hs => hs.1) (fun _ _ hs => hs) fun _ _ hs => hs

/-- The read is of the market, or of the account and says so. -/
def IsReadCall (path : String) (requiresAccount : Bool) : Prop :=
  path ∈ marketPaths ∧ requiresAccount = false ∨ IsAccountPath path ∧ requiresAccount = true

theorem send_guarded {path : String} {requiresAccount : Bool}
    (hread : IsReadCall path requiresAccount) (params : Option (List (String × PyValue)))
    (group : RateLimitGroup) :
    Program.Triple (Guarded env client) (client.send env path params requiresAccount group)
      (fun _ => Guarded env client) (fun _ => Guarded env client) := by
  refine Program.triple_bind (fun _ => Guarded env client) ?_ fun _ => ?_
  · exact client.throttle.wait_keeps .rest group (fun _ hs => hs.quiet rfl)
      (fun _ hs => hs.quiet rfl) (fun _ _ hs => ⟨hs.onlyPermitted, hs.cached⟩)
      fun _ => triple_sleep (fun _ _ hs => hs.quiet rfl) fun _ _ _ hs => hs.quiet rfl
  refine Program.triple_bind _ validToken_guarded fun token => ?_
  refine Program.triple_bind (fun account s => (IsAccountPath path ∧ (∃ accountSeq,
      client.accountSeq = some accountSeq ∧ account = [("X-Tossinvest-Account", accountSeq)]) ∨
      path ∈ marketPaths ∧ account = []) ∧ Bearing env client token s) ?_ fun account => ?_
  · unfold TossRestClient.accountHeader
    rcases hread with ⟨hmarket, rfl⟩ | ⟨haccount, rfl⟩
    · exact Program.triple_pure fun _ hs => ⟨Or.inr ⟨hmarket, rfl⟩, hs⟩
    · cases hseq : client.accountSeq with
      | none => exact triple_raiseOther fun _ hs => hs.1
      | some accountSeq =>
        exact Program.triple_pure fun _ hs => ⟨Or.inl ⟨haccount, accountSeq, rfl, rfl⟩, hs⟩
  refine Program.triple_of_pure fun haccount => ?_
  have hget := @request_from env 0 (Bearing env client token) (fun _ _ hs => hs.quiet rfl)
    { party := .rest, group, token := some token } client.http "GET" path params
    (("Authorization", "Bearer " ++ token.value) :: account) none fun s e he hs => by
      refine ⟨hs.1.logged fun errand req hnew => ?_, hs.2.append e⟩
      rw [he] at hnew
      cases hnew
      refine Or.inr ⟨token, rfl, rfl, hs.2, rfl, rfl, path, rfl, ?_⟩
      rcases haccount with ⟨haccount, accountSeq, hseq, rfl⟩ | ⟨hmarket, rfl⟩
      · exact Or.inr ⟨haccount, accountSeq, hseq, rfl⟩
      · exact Or.inl ⟨hmarket, rfl⟩
  exact (sendWithStatusRetry_from (fun _ _ hs => hs.quiet rfl) client.retry hget).conseq
    (fun _ hs => ⟨hs, Nat.zero_le _⟩) (fun _ _ hs => hs.1.1.1) fun _ _ hs => hs.1

theorem get_guarded {path : String} {requiresAccount : Bool}
    (hread : IsReadCall path requiresAccount) (params : Option (List (String × PyValue)))
    (group : Option RateLimitGroup) :
    Program.Triple (Guarded env client) (client.get env path params requiresAccount group)
      (fun _ => Guarded env client) (fun _ => Guarded env client) :=
  TossRestClient.get_keeps (send_guarded hread params)
    (fun s hs => ⟨hs.onlyPermitted, fun _ h => by cases h⟩) fun _ _ hs => hs.quiet rfl

/-- A read, and what is made of its envelope. -/
theorem reading_guarded {α : Type} {path : String} {requiresAccount : Bool}
    (hread : IsReadCall path requiresAccount) (params : Option (List (String × PyValue)))
    (group : Option RateLimitGroup) (read : TossResponseEnvelope → Except Raised α)
    (wrap : α → GatewayRecord) :
    Program.Triple (Guarded env client)
      (do
        let a ← (do
          let envelope ← client.get env path params requiresAccount group
          Program.lift (read envelope) : Action α)
        return wrap a)
      (fun _ => Guarded env client) (fun _ => Guarded env client) := by
  refine Program.triple_bind (fun _ => Guarded env client) ?_
    fun _ => Program.triple_pure fun _ hs => hs
  refine Program.triple_bind (fun _ => Guarded env client) (get_guarded hread params group)
    fun envelope => ?_
  exact Program.triple_lift (fun _ _ _ hs => hs) fun _ _ _ hs => hs

theorem checkAuthHealth_guarded :
    Program.Triple (Guarded env client) (checkAuthHealth env client.oauth)
      (fun _ => Guarded env client) (fun _ => Guarded env client) := by
  refine Program.triple_bind (fun _ => Guarded env client) ?_ fun _ => ?_
  · exact Program.triple_modify fun s hs => ⟨hs.onlyPermitted, fun _ h => by cases h⟩
  refine Program.triple_bind (fun _ => Guarded env client) ?_ fun token => ?_
  · refine Program.triple_bind _ validToken_guarded fun token => ?_
    exact Program.triple_pure fun _ hs => hs.1
  refine Program.triple_bind (fun _ => Guarded env client)
    (Program.triple_read fun _ hs => hs) fun checkedAt => ?_
  refine Program.triple_bind (fun _ => Guarded env client)
    (Program.triple_read fun _ hs => hs) fun cached => ?_
  exact Program.triple_pure fun _ hs => hs

end Programs

/-! ## Runs -/

theorem call_guarded (env : Env) (client : TossRestClient) (captureRawPayload : Bool)
    (call : GatewayCall) :
    Program.Triple (Guarded env client)
      (call.perform env (gatewaysOf client captureRawPayload))
      (fun _ => Guarded env client) (fun _ => Guarded env client) := by
  have hmarket : ∀ {path}, path ∈ marketPaths → IsReadCall path false := fun h => Or.inl ⟨h, rfl⟩
  have haccount : ∀ {path}, path ∈ accountPaths → IsReadCall path true :=
    fun h => Or.inr ⟨Or.inl h, rfl⟩
  cases call with
  | getPrice symbol => exact reading_guarded (hmarket (by decide)) _ _ _ _
  | getOrderbook symbol => exact reading_guarded (hmarket (by decide)) _ _ _ _
  | getTrades symbol => exact reading_guarded (hmarket (by decide)) _ _ _ _
  | getCandles symbol interval count before =>
    simp only [GatewayCall.perform, MarketDataAdapter.getCandles, not_not_intro count.property,
      if_false]
    exact reading_guarded (hmarket (by decide)) _ _ _ _
  | getPriceLimits symbol => exact reading_guarded (hmarket (by decide)) _ _ _ _
  | getStocks params => exact reading_guarded (hmarket (by decide)) _ _ _ _
  | getAccounts => exact reading_guarded (haccount (by decide)) _ _ _ _
  | getHoldings => exact reading_guarded (haccount (by decide)) _ _ _ _
  | getOrders params => exact reading_guarded (haccount (by decide)) _ _ _ _
  | getOrder orderId => exact reading_guarded (Or.inr ⟨Or.inr ⟨orderId, rfl⟩, rfl⟩) _ _ _ _
  | getBuyingPower params => exact reading_guarded (haccount (by decide)) _ _ _ _
  | getSellableQuantity symbol => exact reading_guarded (haccount (by decide)) _ _ _ _
  | getCommissions params => exact reading_guarded (haccount (by decide)) _ _ _ _

/-- Gateways are built in read-only mode only, over a client with the credentials of the
settings; and in every run, however its calls and health checks end, httpx is asked only for
token requests and for reads with a token that was granted before. -/
theorem only_reads_on_the_wire {env : Env} {settings : Settings} {captureRawPayload : Bool}
    {gateways : TossGateways}
    (hbuilt : buildTossGateways settings captureRawPayload = .ok gateways) :
    settings.tossReadOnlyMode = true ∧ ∃ clientId clientSecret,
      settings.tossClientId = some clientId ∧ settings.tossClientSecret = some clientSecret ∧
        ∀ s, Program.Reaches (gateways.uses env) State.fresh s →
          ∀ n errand req, seen Event.attempting s.log n = some (errand, req) →
            Permitted env (settings.client clientId clientSecret) (s.log.take n) errand req := by
  obtain ⟨hmode, clientId, clientSecret, hid, hsecret, rfl⟩ :=
    buildTossGateways_eq_ok_iff.mp hbuilt
  refine ⟨hmode, clientId, clientSecret, hid, hsecret, fun s hrun => ?_⟩
  have hguarded : Guarded env (settings.client clientId clientSecret) s := by
    refine hrun.invariant ?_ guarded_fresh
    rintro action ⟨use, rfl⟩
    cases use with
    | call endpoint =>
      exact Program.triple_bind (fun _ => Guarded env _)
        (call_guarded env _ captureRawPayload endpoint) fun _ =>
          Program.triple_pure fun _ hs => hs
    | checkAuthHealth =>
      exact Program.triple_bind (fun _ => Guarded env _) checkAuthHealth_guarded
        fun _ => Program.triple_pure fun _ hs => hs
  exact hguarded.onlyPermitted

/-- Settings with credentials and an account. -/
def sampleSettings : Settings where
  tossClientId := some "id"
  tossClientSecret := some "secret"
  tossAccountSeq := some "1"

theorem sample_gateways_only_read :
    ∃ gateways, buildTossGateways sampleSettings false = .ok gateways ∧
      sampleSettings.tossReadOnlyMode = true ∧ ∃ clientId clientSecret,
        sampleSettings.tossClientId = some clientId ∧
        sampleSettings.tossClientSecret = some clientSecret ∧
          ∀ s, Program.Reaches (gateways.uses negativeWaitEnv) State.fresh s →
            ∀ n errand req, seen Event.attempting s.log n = some (errand, req) →
              Permitted negativeWaitEnv (sampleSettings.client clientId clientSecret)
                (s.log.take n) errand req :=
  ⟨_, rfl, only_reads_on_the_wire rfl⟩

end Toss
end QuantPlatform
