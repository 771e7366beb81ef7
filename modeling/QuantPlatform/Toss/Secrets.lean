import QuantPlatform.Effects.Twin
import QuantPlatform.Toss.Factory

namespace QuantPlatform
namespace Toss

open QuantPlatform.Core Effects Program

def Request.withoutForm (request : Request) : Request := { request with data := none }

def Event.withoutForm : Event → Event
  | refused errand request => refused errand request.withoutForm
  | sent errand request outcome => sent errand request.withoutForm outcome
  | e => e

def State.withoutForms (s : State) : State := { s with log := s.log.map Event.withoutForm }

/-- The states differ in the forms of requests at most. -/
def Agree (s t : State) : Prop := s.withoutForms = t.withoutForms

section Agree

variable {s t : State}

theorem Agree.log (h : Agree s t) : s.log.map Event.withoutForm = t.log.map Event.withoutForm :=
  congrArg State.log h

theorem Agree.length (h : Agree s t) : s.log.length = t.log.length := by
  simpa using congrArg List.length h.log

theorem Agree.lastCallAt (h : Agree s t) : s.lastCallAt = t.lastCallAt := by
  show s.withoutForms.lastCallAt = t.withoutForms.lastCallAt
  rw [h]

theorem Agree.cachedToken (h : Agree s t) : s.cachedToken = t.cachedToken := by
  show s.withoutForms.cachedToken = t.withoutForms.cachedToken
  rw [h]

theorem agree_of_parts (hlog : s.log.map Event.withoutForm = t.log.map Event.withoutForm)
    (hlast : s.lastCallAt = t.lastCallAt) (hcached : s.cachedToken = t.cachedToken) :
    Agree s t := by
  unfold Agree State.withoutForms
  rw [hlog, hlast, hcached]

theorem Agree.logged {e e' : Event} (h : Agree s t) (he : e.withoutForm = e'.withoutForm) :
    Agree (s.logged e) (t.logged e') := by
  refine agree_of_parts ?_ h.lastCallAt h.cachedToken
  rw [State.logged_log, State.logged_log, List.map_append, List.map_append, h.log,
    List.map_singleton, List.map_singleton, he]

theorem Agree.noteCall (h : Agree s t) (party : Party) (group : RateLimitGroup) (time : ℚ) :
    Agree (s.noteCall party group time) (t.noteCall party group time) := by
  refine agree_of_parts h.log ?_ h.cachedToken
  unfold State.noteCall
  rw [h.lastCallAt]

theorem Agree.cache (h : Agree s t) (token : Option AccessToken) :
    Agree { s with cachedToken := token } { t with cachedToken := token } :=
  agree_of_parts h.log h.lastCallAt rfl

end Agree

/-! ## Acting alike -/

theorem twin_emit {e e' : Event} (he : e.withoutForm = e'.withoutForm) :
    Twin Agree (emit e) (emit e') := by
  refine twin_bind (twin_read fun s t h => h.length) fun n => ?_
  exact twin_bind (twin_modify fun s t h => h.logged he) fun _ => twin_pure n

theorem twin_readMonotonic (env : Env) (e : Event) :
    Twin Agree (readMonotonic env e) (readMonotonic env e) :=
  twin_bind (twin_emit rfl) fun _ => twin_pure _

theorem twin_readClock (env : Env) (e : Event) :
    Twin Agree (readClock env e) (readClock env e) :=
  twin_bind (twin_emit rfl) fun _ => twin_pure _

theorem twin_raiseOther {α : Type} (error : Exn × String) :
    Twin Agree (raiseOther error : Action α) (raiseOther error) :=
  twin_raise _

theorem twin_sleep (seconds : PyFloat) : Twin Agree (sleep seconds) (sleep seconds) := by
  refine twin_bind (twin_emit rfl) fun _ => ?_
  cases sleepError seconds with
  | some error => exact twin_raiseOther error
  | none => exact twin_pure ()

theorem twin_dated (x : Except Exn Instant) : Twin Agree (dated x) (dated x) := by
  cases x with
  | ok t => exact twin_pure t
  | error exn => exact twin_raiseOther _

/-- Requests that differ in the form at most, and that httpx builds or refuses alike. -/
structure SentAlike (env : Env) (request request' : Request) : Prop where
  covered : request.withoutForm = request'.withoutForm
  unsendable : env.unsendable request = env.unsendable request'

theorem SentAlike.refl (env : Env) (request : Request) : SentAlike env request request :=
  ⟨rfl, rfl⟩

section Sending

variable {env : Env} {request request' : Request}

theorem twin_transmit (h : SentAlike env request request') (errand : Errand) :
    Twin Agree (transmit env errand request) (transmit env errand request') := by
  unfold transmit
  rw [h.unsendable]
  cases env.unsendable request' with
  | some error =>
    refine twin_bind (twin_emit ?_) fun _ => twin_raiseOther error
    exact congrArg (Event.refused errand) h.covered
  | none =>
    refine twin_bind (twin_read fun s t h => h.length) fun n => ?_
    refine twin_bind (twin_emit ?_) fun _ => twin_pure _
    exact congrArg (Event.sent errand · (env.transport n)) h.covered

theorem twin_attempts (h : SentAlike env request request') (http : BaseApiClient)
    (errand : Errand) (left : List Nat) :
    Twin Agree (http.attempts env errand request left)
      (http.attempts env errand request' left) := by
  have hurl : request.url = request'.url := by
    show request.withoutForm.url = request'.withoutForm.url
    rw [h.covered]
  rw [BaseApiClient.attempts_eq_retrying, BaseApiClient.attempts_eq_retrying, hurl]
  exact twin_retrying (twin_transmit h errand) (fun attempt => twin_sleep _)
    (twin_raiseOther _) left

theorem twin_sendWithStatusRetry (retry : StatusRetry) {send send' : Action Response}
    (h : Twin Agree send send') :
    Twin Agree (retry.sendWithStatusRetry send) (retry.sendWithStatusRetry send') := by
  unfold StatusRetry.sendWithStatusRetry
  generalize List.range (retry.maxRetries + 1) = left
  generalize (none : Option Response) = last
  induction left generalizing last with
  | nil =>
    cases last with
    | some response => exact twin_pure response
    | none => exact twin_raiseOther _
  | cons attempt rest ih =>
    refine twin_bind h fun response => twin_ite (fun _ => twin_pure response) fun _ => ?_
    exact twin_bind (twin_sleep _) fun _ => ih (some response)

theorem twin_wait (throttle : GroupThrottle) (party : Party) (group : RateLimitGroup) :
    Twin Agree (throttle.wait env party group) (throttle.wait env party group) := by
  refine twin_ite (fun _ => twin_pure ()) fun _ => ?_
  refine twin_bind (twin_read fun s t h => ?_) fun last => ?_
  · exact congrFun (congrFun h.lastCallAt party) group
  refine twin_bind ?_ fun _ => ?_
  · cases last with
    | none => exact twin_pure ()
    | some last =>
      refine twin_bind (twin_readMonotonic env _) fun now => ?_
      exact twin_ite (fun _ => twin_sleep _) fun _ => twin_pure ()
  · refine twin_bind (twin_readMonotonic env _) fun now => ?_
    exact twin_modify fun s t h => h.noteCall party group now

end Sending

/-! ## Clients with other credentials -/

/-- The form of a token request. -/
def tokenForm (clientId clientSecret : String) : List (String × String) :=
  [("grant_type", "client_credentials"), ("client_id", clientId), ("client_secret", clientSecret)]

/-- httpx builds the token requests with either credentials, or refuses them alike. -/
def FormsAlike (env : Env) (clientId clientSecret clientId' clientSecret' : String) : Prop :=
  ∀ request : Request,
    env.unsendable { request with data := some (tokenForm clientId clientSecret) } =
      env.unsendable { request with data := some (tokenForm clientId' clientSecret') }

theorem FormsAlike.sentAlike {env : Env} {clientId clientSecret clientId' clientSecret' : String}
    (h : FormsAlike env clientId clientSecret clientId' clientSecret') (request : Request) :
    SentAlike env { request with data := some (tokenForm clientId clientSecret) }
      { request with data := some (tokenForm clientId' clientSecret') } :=
  ⟨rfl, h request⟩

section Clients

variable {env : Env} {oauth : TossOAuthClient} {clientId clientSecret : String}

/-- The client with these credentials in place of its own. -/
def TossOAuthClient.withCredentials (oauth : TossOAuthClient) (clientId clientSecret : String) :
    TossOAuthClient :=
  { oauth with clientId, clientSecret }

variable (hforms : FormsAlike env oauth.clientId oauth.clientSecret clientId clientSecret)

include hforms

theorem twin_post :
    Twin Agree (oauth.post env) ((oauth.withCredentials clientId clientSecret).post env) := by
  have halike := hforms.sentAlike {
    method := "POST", url := oauth.http.url TossOAuthClient.tokenPath
    timeoutSeconds := oauth.http.policy.timeoutSeconds }
  exact twin_attempts halike oauth.http TossOAuthClient.errand _

theorem twin_fetchToken :
    Twin Agree (oauth.fetchToken env)
      ((oauth.withCredentials clientId clientSecret).fetchToken env) := by
  refine twin_bind (twin_wait _ _ _) fun _ => ?_
  refine twin_bind (twin_sendWithStatusRetry _ (twin_post hforms)) fun response => ?_
  refine twin_bind (twin_lift _) fun _ => twin_bind (twin_lift _) fun parsed => ?_
  refine twin_bind (twin_readClock env _) fun now => twin_bind (twin_dated _) fun expiresAt => ?_
  exact twin_pure _

theorem twin_renew :
    Twin Agree (oauth.renew env) ((oauth.withCredentials clientId clientSecret).renew env) := by
  refine twin_bind (twin_fetchToken hforms) fun token => ?_
  exact twin_bind (twin_modify fun s t h => h.cache _) fun _ => twin_pure token

theorem twin_validToken :
    Twin Agree (oauth.validToken env)
      ((oauth.withCredentials clientId clientSecret).validToken env) := by
  refine twin_bind (twin_read fun s t h => h.cachedToken) fun cached => ?_
  cases cached with
  | none => exact twin_renew hforms
  | some token =>
    refine twin_bind ?_ fun expiring => ?_
    · refine twin_bind (twin_readClock env _) fun now => ?_
      exact twin_bind (twin_dated _) fun limit => twin_pure _
    · exact twin_ite (fun _ => twin_renew hforms) fun _ => twin_pure token

theorem twin_checkAuthHealth :
    Twin Agree (checkAuthHealth env oauth)
      (checkAuthHealth env (oauth.withCredentials clientId clientSecret)) := by
  refine twin_bind (twin_modify fun s t h => h.cache none) fun _ => ?_
  refine twin_bind (twin_bind (twin_validToken hforms) fun token => twin_pure _) fun value => ?_
  refine twin_bind (twin_read fun s t h => congrArg env.now h.length) fun checkedAt => ?_
  exact twin_bind (twin_read fun s t h => h.cachedToken) fun cached => twin_pure _

end Clients

section Gateways

variable {env : Env} {client : TossRestClient} {clientId clientSecret : String}

def TossRestClient.withCredentials (client : TossRestClient) (clientId clientSecret : String) :
    TossRestClient :=
  { client with oauth := client.oauth.withCredentials clientId clientSecret }

variable (hforms :
  FormsAlike env client.oauth.clientId client.oauth.clientSecret clientId clientSecret)

include hforms

theorem twin_send (path : String) (params : Option (List (String × PyValue)))
    (requiresAccount : Bool) (group : RateLimitGroup) :
    Twin Agree (client.send env path params requiresAccount group)
      ((client.withCredentials clientId clientSecret).send env path params requiresAccount
        group) := by
  refine twin_bind (twin_wait _ _ _) fun _ => twin_bind (twin_validToken hforms) fun token => ?_
  refine twin_bind ?_ fun account => ?_
  · cases requiresAccount with
    | false => exact twin_pure []
    | true =>
      unfold TossRestClient.accountHeader TossRestClient.withCredentials
      cases client.accountSeq with
      | some accountSeq => exact twin_pure _
      | none => exact twin_raiseOther _
  · exact twin_sendWithStatusRetry _ (twin_attempts (.refl env _) _ _ _)

theorem twin_get (path : String) (params : Option (List (String × PyValue)))
    (requiresAccount : Bool) (group : Option RateLimitGroup) :
    Twin Agree (client.get env path params requiresAccount group)
      ((client.withCredentials clientId clientSecret).get env path params requiresAccount
        group) := by
  refine twin_ite (fun _ => twin_raise _) fun _ => ?_
  refine twin_bind (twin_send hforms path params requiresAccount _) fun first => ?_
  refine twin_bind ?_ fun response => twin_bind (twin_lift _) fun _ => ?_
  · refine twin_ite (fun _ => ?_) fun _ => twin_pure first
    refine twin_bind (twin_modify fun s t h => h.cache none) fun _ => ?_
    exact twin_send hforms path params requiresAccount _
  · unfold TossRestClient.envelope
    cases env.json response.content with
    | none => exact twin_raiseOther _
    | some payload => exact twin_bind (twin_readClock env _) fun receivedAt => twin_pure _

/-- A read, and what is made of its envelope. -/
theorem twin_reading {α : Type} (path : String) (params : Option (List (String × PyValue)))
    (requiresAccount : Bool) (group : Option RateLimitGroup)
    (read : TossResponseEnvelope → Except Raised α) (wrap : α → GatewayRecord) :
    Twin Agree
      (do
        let a ← (do
          let envelope ← client.get env path params requiresAccount group
          Program.lift (read envelope) : Action α)
        return wrap a)
      (do
        let a ← (do
          let envelope ← (client.withCredentials clientId clientSecret).get env path params
            requiresAccount group
          Program.lift (read envelope) : Action α)
        return wrap a) := by
  refine twin_bind ?_ fun a => twin_pure (wrap a)
  exact twin_bind (twin_get hforms path params requiresAccount group) fun _ => twin_lift _

theorem twin_call (captureRawPayload : Bool) (endpoint : GatewayCall) :
    Twin Agree (endpoint.perform env (gatewaysOf client captureRawPayload))
      (endpoint.perform env
        (gatewaysOf (client.withCredentials clientId clientSecret) captureRawPayload)) := by
  cases endpoint with
  | getCandles symbol interval count before =>
    simp only [GatewayCall.perform, MarketDataAdapter.getCandles, not_not_intro count.property,
      if_false]
    exact twin_reading hforms _ _ _ _ _ _
  | _ => exact twin_reading hforms _ _ _ _ _ _

theorem twin_use (captureRawPayload : Bool) (use : GatewayUse) :
    Twin Agree (use.perform env (gatewaysOf client captureRawPayload))
      (use.perform env
        (gatewaysOf (client.withCredentials clientId clientSecret) captureRawPayload)) := by
  cases use with
  | call endpoint =>
    exact twin_bind (twin_call hforms captureRawPayload endpoint) fun record => twin_pure _
  | checkAuthHealth =>
    exact twin_bind (twin_checkAuthHealth hforms) fun report => twin_pure _

end Gateways

/-- The uses one after the other, however each of them ends. -/
def TossGateways.inTurn (env : Env) (gateways : TossGateways) (uses : List GatewayUse) :
    Action (List (Except Raised (GatewayRecord ⊕ AuthHealthCheckResult))) :=
  Program.inTurn (uses.map fun use => use.perform env gateways)

def Settings.withCredentials (settings : Settings) (clientId clientSecret : String) : Settings :=
  { settings with tossClientId := some clientId, tossClientSecret := some clientSecret }

/-- Whatever the gateways are used for, with other credentials every use returns or raises the
same, and what happened differs in the forms of the token requests at most. -/
theorem credentials_only_in_forms {env : Env} {settings : Settings}
    {clientId clientSecret clientId' clientSecret' : String} {captureRawPayload : Bool}
    {gateways gateways' : TossGateways}
    (hforms : FormsAlike env clientId clientSecret clientId' clientSecret')
    (hbuilt : buildTossGateways (settings.withCredentials clientId clientSecret)
      captureRawPayload = .ok gateways)
    (hbuilt' : buildTossGateways (settings.withCredentials clientId' clientSecret')
      captureRawPayload = .ok gateways') (uses : List GatewayUse) :
    (gateways.inTurn env uses State.fresh).1 = (gateways'.inTurn env uses State.fresh).1 ∧
      Agree (gateways.inTurn env uses State.fresh).2 (gateways'.inTurn env uses State.fresh).2 := by
  obtain ⟨_, _, _, hid, hsecret, rfl⟩ := buildTossGateways_eq_ok_iff.mp hbuilt
  obtain ⟨_, _, _, hid', hsecret', rfl⟩ := buildTossGateways_eq_ok_iff.mp hbuilt'
  cases hid
  cases hsecret
  cases hid'
  cases hsecret'
  have htwin : ∀ use ∈ uses, Twin Agree
      (use.perform env (gatewaysOf (settings.client clientId clientSecret) captureRawPayload))
      (use.perform env (gatewaysOf
        ((settings.client clientId clientSecret).withCredentials clientId' clientSecret')
        captureRawPayload)) :=
    fun use _ => twin_use hforms captureRawPayload use
  exact twin_inTurn htwin State.fresh State.fresh rfl

theorem rotated_secret_covered :
    ∃ gateways gateways',
      buildTossGateways (({} : Settings).withCredentials "id" "old") false = .ok gateways ∧
      buildTossGateways (({} : Settings).withCredentials "id" "new") false = .ok gateways' ∧
      ∀ uses,
        (gateways.inTurn negativeWaitEnv uses State.fresh).1 =
          (gateways'.inTurn negativeWaitEnv uses State.fresh).1 ∧
        Agree (gateways.inTurn negativeWaitEnv uses State.fresh).2
          (gateways'.inTurn negativeWaitEnv uses State.fresh).2 :=
  ⟨_, _, rfl, rfl, @credentials_only_in_forms negativeWaitEnv {} "id" "old" "id" "new" false _ _
    (fun _ => rfl) rfl rfl⟩

end Toss
end QuantPlatform
