import QuantPlatform.Effects.Budget
import QuantPlatform.Toss.Secrets

namespace QuantPlatform
namespace Toss

open QuantPlatform.Core Effects Program

/-- The requests a state has seen. -/
def State.requests (s : State) : Nat := requestCount s.log

theorem requests_logged {s : State} {e : Event} (he : e.isSent = false) :
    (s.logged e).requests = s.requests := by
  unfold State.requests
  rw [State.logged_log, requestCount_append, he]
  rfl

section Parts

variable {env : Env}

theorem spends_raiseOther {α : Type} (error : Exn × String) :
    Spends State.requests 0 (raiseOther error : Action α) :=
  spends_raise _

theorem spends_dated (x : Except Exn Instant) : Spends State.requests 0 (dated x) := by
  cases x with
  | ok t => exact spends_pure t
  | error exn => exact spends_raiseOther _

theorem spends_readClock {e : Event} (he : e.isSent = false) :
    Spends State.requests 0 (readClock env e) := by
  refine spends_of_triple fun n => triple_readClock fun s hs => ?_
  rw [requests_logged he]
  exact hs

theorem spends_sleep (seconds : PyFloat) : Spends State.requests 0 (sleep seconds) :=
  spends_of_triple fun n => sleep_requestCount n seconds

theorem spends_wait (throttle : GroupThrottle) (party : Party) (group : RateLimitGroup) :
    Spends State.requests 0 (throttle.wait env party group) := by
  refine spends_of_triple fun n => throttle.wait_keeps party group ?_ ?_ ?_ ?_
  · intro s hs
    rw [requests_logged rfl]
    exact hs
  · intro s hs
    rw [requests_logged rfl]
    exact hs
  · exact fun _ _ hs => hs
  · exact fun seconds => (spends_sleep seconds).triple n

theorem spends_request (http : BaseApiClient) (errand : Errand) (method path : String)
    (params : Option (List (String × PyValue))) (headers : List (String × String))
    (data : Option (List (String × String))) :
    Spends State.requests (http.policy.maxRetries + 1)
      (http.request env errand method path params headers data) :=
  spends_of_triple fun n => request_requestCount n

theorem spends_sendWithStatusRetry (retry : StatusRetry) {send : Action Response} {k : Nat}
    (hsend : Spends State.requests k send) :
    Spends State.requests ((retry.maxRetries + 1) * k) (retry.sendWithStatusRetry send) :=
  spends_of_triple fun n => sendWithStatusRetry_requestCount (fun n => hsend.triple n) n

end Parts

/-- The requests of one loop over statuses, over a loop over timeouts and network errors. -/
def loopBudget (retry : StatusRetry) (http : BaseApiClient) : Nat :=
  (retry.maxRetries + 1) * (http.policy.maxRetries + 1)

def TossOAuthClient.budget (oauth : TossOAuthClient) : Nat := loopBudget oauth.retry oauth.http

/-- A round may fetch a token first. -/
def TossRestClient.roundBudget (client : TossRestClient) : Nat :=
  client.oauth.budget + loopBudget client.retry client.http

section Clients

variable {env : Env} {oauth : TossOAuthClient} {client : TossRestClient}

theorem spends_cache (token : Option AccessToken) :
    Spends State.requests 0
      (Program.modify fun s : State => { s with cachedToken := token } : Action Unit) :=
  spends_modify fun s => le_refl s.requests

theorem spends_fetchToken : Spends State.requests oauth.budget (oauth.fetchToken env) := by
  refine (spends_wait _ _ _).after fun _ => ?_
  refine Spends.andThen ?_ fun response => ?_
  · exact spends_sendWithStatusRetry _ (spends_request _ _ _ _ _ _ _)
  refine (spends_lift _).andThen fun _ => (spends_lift _).andThen fun parsed => ?_
  refine (spends_readClock rfl).andThen fun now => ?_
  exact (spends_dated _).andThen fun expiresAt => spends_pure _

theorem spends_renew : Spends State.requests oauth.budget (oauth.renew env) := by
  refine spends_fetchToken.andThen fun token => ?_
  exact (spends_cache (some token)).andThen fun _ => spends_pure token

theorem spends_isExpiring (token : AccessToken) :
    Spends State.requests 0 (oauth.isExpiring env token) := by
  refine (spends_readClock rfl).andThen fun now => ?_
  exact (spends_dated _).andThen fun limit => spends_pure _

theorem spends_validToken : Spends State.requests oauth.budget (oauth.validToken env) := by
  refine (spends_read _).after fun cached => ?_
  cases cached with
  | none => exact spends_renew
  | some token =>
    refine (spends_isExpiring token).after fun expiring => ?_
    exact spends_ite (fun _ => spends_renew) fun _ => (spends_pure token).mono (Nat.zero_le _)

theorem spends_accountHeader (requiresAccount : Bool) :
    Spends State.requests 0 (client.accountHeader requiresAccount) :=
  spends_of_triple fun _ => TossRestClient.accountHeader_keeps fun _ _ hs => hs

theorem spends_send (path : String) (params : Option (List (String × PyValue)))
    (requiresAccount : Bool) (group : RateLimitGroup) :
    Spends State.requests client.roundBudget
      (client.send env path params requiresAccount group) := by
  refine (spends_wait _ _ _).after fun _ => ?_
  refine spends_validToken.bind fun token => ?_
  refine (spends_accountHeader _).after fun account => ?_
  exact spends_sendWithStatusRetry _ (spends_request _ _ _ _ _ _ _)

/-- The first round, and the one after a 401. -/
theorem spends_get (path : String) (params : Option (List (String × PyValue)))
    (requiresAccount : Bool) (group : Option RateLimitGroup) :
    Spends State.requests (2 * client.roundBudget)
      (client.get env path params requiresAccount group) := by
  refine spends_ite (fun _ => (spends_raise _).mono (Nat.zero_le _)) fun _ => ?_
  rw [Nat.two_mul]
  refine (spends_send path params requiresAccount _).bind fun first => ?_
  refine Spends.andThen ?_ fun response => (spends_lift _).andThen fun _ => ?_
  · refine spends_ite (fun _ => ?_) fun _ => (spends_pure first).mono (Nat.zero_le _)
    exact (spends_cache none).after fun _ => spends_send _ _ _ _
  · unfold TossRestClient.envelope
    cases env.json response.content with
    | none => exact spends_raiseOther _
    | some payload => exact (spends_readClock rfl).andThen fun receivedAt => spends_pure _

theorem spends_checkAuthHealth :
    Spends State.requests oauth.budget (checkAuthHealth env oauth) := by
  refine (spends_cache none).after fun _ => ?_
  refine Spends.andThen (spends_validToken.andThen fun token => spends_pure _) fun value => ?_
  refine (spends_read _).andThen fun checkedAt => ?_
  exact (spends_read _).andThen fun cached => spends_pure _

end Clients

/-! ## The gateways -/

section Gateways

variable {env : Env} {client : TossRestClient}

/-- A read, and what is made of its envelope. -/
theorem spends_reading {α : Type} (path : String) (params : Option (List (String × PyValue)))
    (requiresAccount : Bool) (group : Option RateLimitGroup)
    (read : TossResponseEnvelope → Except Raised α) (wrap : α → GatewayRecord) :
    Spends State.requests (2 * client.roundBudget)
      (do
        let a ← (do
          let envelope ← client.get env path params requiresAccount group
          Program.lift (read envelope) : Action α)
        return wrap a) := by
  refine Spends.andThen ?_ fun a => spends_pure (wrap a)
  exact (spends_get path params requiresAccount group).andThen fun _ => spends_lift _

theorem spends_call (captureRawPayload : Bool) (endpoint : GatewayCall) :
    Spends State.requests (2 * client.roundBudget)
      (endpoint.perform env (gatewaysOf client captureRawPayload)) := by
  cases endpoint with
  | getCandles symbol interval count before =>
    simp only [GatewayCall.perform, MarketDataAdapter.getCandles, not_not_intro count.property,
      if_false]
    exact spends_reading _ _ _ _ _ _
  | _ => exact spends_reading _ _ _ _ _ _

end Gateways

/-- The requests of one use: four loops for a call, and one for a health check. -/
def GatewayUse.budget (maxRetries : Nat) : GatewayUse → Nat
  | call _ => 4 * (maxRetries + 1) ^ 2
  | checkAuthHealth => (maxRetries + 1) ^ 2

theorem spends_use (env : Env) (settings : Settings) (clientId clientSecret : String)
    (captureRawPayload : Bool) (use : GatewayUse) :
    Spends State.requests (use.budget settings.httpMaxRetries)
      (use.perform env (gatewaysOf (settings.client clientId clientSecret)
        captureRawPayload)) := by
  have hsquare : (settings.httpMaxRetries + 1) * (settings.httpMaxRetries + 1) =
      (settings.httpMaxRetries + 1) ^ 2 := (sq _).symm
  have hloop : (settings.client clientId clientSecret).oauth.budget =
      (settings.httpMaxRetries + 1) ^ 2 := hsquare
  have hround : (settings.client clientId clientSecret).roundBudget =
      (settings.httpMaxRetries + 1) ^ 2 + (settings.httpMaxRetries + 1) ^ 2 :=
    congrArg₂ (· + ·) hsquare hsquare
  cases use with
  | call endpoint =>
    have hcall := @spends_call env (settings.client clientId clientSecret) captureRawPayload
      endpoint
    rw [hround, ← Nat.two_mul, ← Nat.mul_assoc] at hcall
    exact hcall.andThen fun record => spends_pure _
  | checkAuthHealth =>
    have hcheck := @spends_checkAuthHealth env (settings.client clientId clientSecret).oauth
    rw [hloop] at hcheck
    exact hcheck.andThen fun report => spends_pure _

/-- Whatever the gateways are used for, from any state and however each use ends, the run
makes no more requests than the budgets of its uses add up to. -/
theorem requests_within_budget {env : Env} {settings : Settings} {captureRawPayload : Bool}
    {gateways : TossGateways}
    (hbuilt : buildTossGateways settings captureRawPayload = .ok gateways)
    (uses : List GatewayUse) (s : State) :
    requestCount (gateways.inTurn env uses s).2.log ≤
      requestCount s.log + (uses.map (GatewayUse.budget settings.httpMaxRetries)).sum := by
  obtain ⟨_, clientId, clientSecret, _, _, rfl⟩ := buildTossGateways_eq_ok_iff.mp hbuilt
  have hspends : ∀ use ∈ uses, Spends State.requests (use.budget settings.httpMaxRetries)
      (use.perform env (gatewaysOf (settings.client clientId clientSecret) captureRawPayload)) :=
    fun use _ => spends_use env settings clientId clientSecret captureRawPayload use
  exact spends_inTurn hspends s

theorem default_retries_within_budget :
    ∃ gateways, buildTossGateways (({} : Settings).withCredentials "id" "secret") false =
        .ok gateways ∧
      ∀ uses s, requestCount (gateways.inTurn negativeWaitEnv uses s).2.log ≤
        requestCount s.log + (uses.map (GatewayUse.budget 3)).sum :=
  ⟨_, rfl, fun uses s => @requests_within_budget negativeWaitEnv
    (({} : Settings).withCredentials "id" "secret") false _ rfl uses s⟩

end Toss
end QuantPlatform
