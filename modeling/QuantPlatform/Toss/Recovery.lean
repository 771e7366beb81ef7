/-
What a call does about a 401.

A call is recorded as its rounds and what lies between them.  A 401 ends the first
round, empties the cache and leads to one more round, which has no token to take but a
new one; whatever that round comes to is what the call comes to.
-/
import QuantPlatform.Effects.Record
import QuantPlatform.Toss.Client

namespace QuantPlatform
namespace Toss

open QuantPlatform.Core Effects

/-- One `_send`: where it started, what came of it and where it ended. -/
structure Round where
  start : State
  answer : Except Raised Response
  stop : State

inductive Step
  | sent (round : Round)
  | invalidated

def Step.round : Step → Option Round
  | sent round => some round
  | invalidated => none

def Step.isInvalidated : Step → Bool
  | sent _ => false
  | invalidated => true

def rounds (steps : List Step) : List Round := steps.filterMap Step.round

namespace TossRestClient

variable (env : Env) (client : TossRestClient) (path : String)
  (params : Option (List (String × PyValue))) (requiresAccount : Bool)

def recordedSend (group : RateLimitGroup) : Program (State × List Step) Raised Response :=
  Program.recorded (fun start answer stop => .sent { start, answer, stop })
    (client.send env path params requiresAccount group)

def recordedResend (group : RateLimitGroup) (response : Response) :
    Program (State × List Step) Raised Response :=
  if response.statusCode = 401 then do
    Program.recorded (fun _ _ _ => .invalidated) TossOAuthClient.invalidate
    client.recordedSend env path params requiresAccount group
  else return response

/-- What follows the last round. -/
def conclude (response : Response) : Action TossResponseEnvelope := do
  Program.lift (raiseForStatus env response ("GET " ++ path))
  envelope env response

/-- `get`, with a record of its rounds and of what lies between them. -/
def recordedGet (group : Option RateLimitGroup) :
    Program (State × List Step) Raised TossResponseEnvelope :=
  if requiresAccount = true ∧ client.accountSeq = none then
    Program.unrecorded (client.get env path params requiresAccount group)
  else do
    let resolvedGroup := group.getD (defaultGroupFor path)
    let first ← client.recordedSend env path params requiresAccount resolvedGroup
    let response ← client.recordedResend env path params requiresAccount resolvedGroup first
    Program.unrecorded (conclude env path response)

theorem erases_recordedGet (group : Option RateLimitGroup) :
    Program.Erases (client.recordedGet env path params requiresAccount group)
      (client.get env path params requiresAccount group) := by
  by_cases haccount : requiresAccount = true ∧ client.accountSeq = none
  · rw [recordedGet, if_pos haccount]
    exact Program.erases_unrecorded _
  · rw [recordedGet, if_neg haccount, get, if_neg haccount]
    refine (Program.erases_recorded _ _).bind fun first => ?_
    refine Program.Erases.bind ?_ fun response => Program.erases_unrecorded _
    refine Program.erases_ite ?_ (Program.erases_pure first)
    exact (Program.erases_recorded _ _).bind fun _ => Program.erases_recorded _ _

end TossRestClient

/-- The last response that was received. -/
def lastAnswer (log : List Event) : Option Response := (log.filterMap Event.answering).getLast?

theorem lastAnswer_append_of_none {log : List Event} {e : Event} (h : e.answering = none) :
    lastAnswer (log ++ [e]) = lastAnswer log := by
  rw [lastAnswer, List.filterMap_append, List.filterMap_cons_none h, List.filterMap_nil,
    List.append_nil]
  rfl

theorem lastAnswer_append_of_some {log : List Event} {e : Event} {response : Response}
    (h : e.answering = some response) : lastAnswer (log ++ [e]) = some response := by
  rw [lastAnswer, List.filterMap_append, List.filterMap_cons_some h, List.filterMap_nil,
    List.getLast?_concat]

/-- A request to a resource endpoint. -/
def Event.resourceRequest : Event → Option Request
  | .sent errand request _ => if errand.party = .rest then some request else none
  | _ => none

/-- The answer to a request to the token endpoint. -/
def Event.tokenAnswer : Event → Option Response
  | .sent errand _ (.response response) =>
      if errand.party = .oauth then some response else none
  | _ => none

/-- Event `k` is a 2xx answer of the token endpoint that carries the token. -/
def FetchedAt (env : Env) (log : List Event) (token : String) (k : Nat) : Prop :=
  ∃ response parsed, seen Event.tokenAnswer log k = some response ∧ isSuccess response ∧
    parseToken env response.content = .ok parsed ∧ parsed.accessToken = token

/-- A token fetched since event `start` and before event `n`. -/
def FetchedSince (env : Env) (start : Nat) (log : List Event) (token : String) (n : Nat) : Prop :=
  ∃ k, start ≤ k ∧ k < n ∧ FetchedAt env log token k

/-- From event `start` on every request to a resource endpoint carries a token that was
fetched since. -/
def RenewedSince (env : Env) (start : Nat) (log : List Event) : Prop :=
  ∀ n request, start ≤ n → seen Event.resourceRequest log n = some request →
    ∃ token, request.headers.lookup "Authorization" = some ("Bearer " ++ token) ∧
      FetchedSince env start log token n

section Growth

variable {env : Env} {start n : Nat} {log : List Event} {token : String}

theorem FetchedSince.append (h : FetchedSince env start log token n) (e : Event) :
    FetchedSince env start (log ++ [e]) token n := by
  obtain ⟨k, hstart, hlt, response, parsed, hseen, hrest⟩ := h
  refine ⟨k, hstart, hlt, response, parsed, ?_, hrest⟩
  rwa [seen_append_of_lt (lt_length_of_seen hseen)]

theorem FetchedSince.mono (h : FetchedSince env start log token n) {n' : Nat} (hle : n ≤ n') :
    FetchedSince env start log token n' := by
  obtain ⟨k, hstart, hlt, hfetched⟩ := h
  exact ⟨k, hstart, by omega, hfetched⟩

theorem RenewedSince.append (h : RenewedSince env start log) {e : Event}
    (hnew : ∀ request, e.resourceRequest = some request →
      ∃ token, request.headers.lookup "Authorization" = some ("Bearer " ++ token) ∧
        FetchedSince env start log token log.length) :
    RenewedSince env start (log ++ [e]) := by
  intro n request hstart hseen
  rcases seen_append_eq_some_iff.mp hseen with hold | ⟨rfl, hlast⟩
  · obtain ⟨token, hbearer, hfetched⟩ := h n request hstart hold
    exact ⟨token, hbearer, hfetched.append e⟩
  · obtain ⟨token, hbearer, hfetched⟩ := hnew request hlast
    exact ⟨token, hbearer, hfetched.append e⟩

/-- An event that is no request to a resource endpoint. -/
theorem RenewedSince.quiet (h : RenewedSince env start log) {e : Event}
    (he : e.resourceRequest = none) : RenewedSince env start (log ++ [e]) := by
  refine h.append fun request hnew => ?_
  rw [he] at hnew
  cases hnew

theorem renewedSince_of_length_le (h : log.length ≤ start) : RenewedSince env start log := by
  intro n request hstart hseen
  have hlt := lt_length_of_seen hseen
  omega

end Growth

/-! ## What the programs do to it -/

section Programs

variable {env : Env}

/-- The loops give back the answer that was received last. -/
theorem sendWithStatusRetry_lastAnswer {errand : Errand} {http : BaseApiClient}
    {retry : StatusRetry} {method path : String} {params : Option (List (String × PyValue))}
    {headers : List (String × String)} {data : Option (List (String × String))} :
    Program.Triple (fun _ => True)
      (retry.sendWithStatusRetry (http.request env errand method path params headers data))
      (fun response s => lastAnswer s.log = some response) (fun _ _ => True) := by
  have hsleep : ∀ (P : State → Prop) seconds,
      Program.Triple P (sleep seconds) (fun _ _ => True) (fun _ _ => True) := fun P seconds =>
    triple_sleep (fun _ _ _ => trivial) fun _ _ _ _ => trivial
  refine StatusRetry.triple_sendWithStatusRetry
    (fun response s => lastAnswer s.log = some response) ?_ (fun _ _ hs => hs)
    fun _ _ _ _ => hsleep _ _
  refine BaseApiClient.triple_request
    (fun outcome s => ∀ response, outcome = .response response → lastAnswer s.log = some response)
    ?_ ?_ (fun _ _ _ _ _ => trivial) fun _ _ _ _ _ => hsleep _ _
  · intro request _ _
    refine triple_transmit (fun _ s _ response hresponse => ?_) fun _ _ _ _ => trivial
    rw [hresponse]
    exact lastAnswer_append_of_some rfl
  · intro outcome response hjudge s hs
    exact hs response (BaseApiClient.judge_eq_ok_iff.mp hjudge).1

theorem send_lastAnswer (client : TossRestClient) (path : String)
    (params : Option (List (String × PyValue))) (requiresAccount : Bool)
    (group : RateLimitGroup) :
    Program.Triple (fun _ => True) (client.send env path params requiresAccount group)
      (fun response s => lastAnswer s.log = some response) (fun _ _ => True) := by
  refine Program.triple_bind _ Program.triple_trivial fun _ => ?_
  refine Program.triple_bind _ Program.triple_trivial fun token => ?_
  refine Program.triple_bind _ Program.triple_trivial fun account => ?_
  exact sendWithStatusRetry_lastAnswer

/-- An envelope is made of the last answer, a 2xx. -/
theorem conclude_lastAnswer {path : String} {response : Response} :
    Program.Triple (fun s => lastAnswer s.log = some response)
      (TossRestClient.conclude env path response)
      (fun envelope s => ∃ response, lastAnswer s.log = some response ∧ isSuccess response ∧
        env.json response.content = some envelope.payload)
      (fun _ _ => True) := by
  refine Program.triple_bind
    (fun _ s => lastAnswer s.log = some response ∧ isSuccess response) ?_ fun _ => ?_
  · refine Program.triple_lift (fun _ hok s hs => ⟨hs, ?_⟩) fun _ _ _ _ => trivial
    exact raiseForStatus_eq_ok_iff.mp hok
  unfold TossRestClient.envelope
  split
  · next payload hpayload =>
    refine Program.triple_bind
      (fun _ s => lastAnswer s.log = some response ∧ isSuccess response) ?_ fun _ => ?_
    · refine triple_readClock fun s hs => ⟨?_, hs.2⟩
      exact (lastAnswer_append_of_none rfl).trans hs.1
    · exact Program.triple_pure fun s hs => ⟨response, hs.1, hs.2, hpayload⟩
  · exact triple_raiseOther fun _ _ => trivial

variable {start : Nat}

/-- The attempts of a round, by what each of them and each delay keeps. -/
theorem sendWithStatusRetry_renewed {errand : Errand} {http : BaseApiClient}
    {retry : StatusRetry} {method path : String} {params : Option (List (String × PyValue))}
    {headers : List (String × String)} {data : Option (List (String × String))}
    {I : State → Prop} (Answered : Response → State → Prop)
    (hslept : ∀ s seconds, I s → I (s.logged (.slept seconds)))
    (hrefused : ∀ s request, I s → I (s.logged (.refused errand request)))
    (hsent : ∀ s request outcome, request.headers = headers → I s →
      I (s.logged (.sent errand request outcome)))
    (hanswered : ∀ s request response, I s →
      Answered response (s.logged (.sent errand request (.response response)))) :
    Program.Triple I
      (retry.sendWithStatusRetry (http.request env errand method path params headers data))
      (fun response s => I s ∧ Answered response s) (fun _ => I) := by
  have hsleep : ∀ seconds, Program.Triple I (sleep seconds) (fun _ => I) (fun _ => I) :=
    fun seconds => triple_sleep (fun _ s hs => hslept s seconds hs)
      fun _ _ s hs => hslept s seconds hs
  refine StatusRetry.triple_sendWithStatusRetry (fun response s => I s ∧ Answered response s)
    ?_ (fun _ _ hs => hs) fun _ _ _ _ => ?_
  · refine BaseApiClient.triple_request
      (fun outcome s => I s ∧ ∀ response, outcome = .response response → Answered response s)
      ?_ ?_ (fun _ _ _ _ hs => hs.1) fun _ _ _ _ _ => ?_
    · intro request _ hheaders
      refine triple_transmit (fun _ s hs => ⟨hsent s request _ hheaders hs, ?_⟩)
        fun _ _ s hs => hrefused s request hs
      intro response hresponse
      rw [hresponse]
      exact hanswered s request response hs
    · intro outcome response hjudge s hs
      exact ⟨hs.1, hs.2 response (BaseApiClient.judge_eq_ok_iff.mp hjudge).1⟩
    · exact (hsleep _).conseq (fun _ hs => hs.1) (fun _ _ hs => hs) fun _ _ hs => hs
  · exact (hsleep _).conseq (fun _ hs => hs.1) (fun _ _ hs => hs) fun _ _ hs => hs

/-- The cache has been empty since event `start`, and what was sent since carries new
tokens. -/
structure Emptied (env : Env) (start : Nat) (s : State) : Prop where
  since : start ≤ s.log.length
  renewed : RenewedSince env start s.log
  empty : s.cachedToken = none

theorem Emptied.logged {s : State} (h : Emptied env start s) {e : Event}
    (he : e.resourceRequest = none) : Emptied env start (s.logged e) where
  since := by
    rw [State.logged_log, List.length_append]
    have hsince := h.since
    omega
  renewed := h.renewed.quiet he
  empty := h.empty

theorem wait_emptied (throttle : GroupThrottle) (party : Party) (group : RateLimitGroup) :
    Program.Triple (Emptied env start) (throttle.wait env party group)
      (fun _ => Emptied env start) (fun _ => Emptied env start) := by
  refine throttle.wait_keeps party group (fun _ hs => hs.logged rfl) (fun _ hs => hs.logged rfl)
    (fun _ _ hs => ⟨hs.since, hs.renewed, hs.empty⟩) fun seconds => ?_
  exact triple_sleep (fun _ _ hs => hs.logged rfl) fun _ _ _ hs => hs.logged rfl

/-- A token that is fetched has been fetched since, and one that is not leaves the cache
empty. -/
theorem fetchToken_emptied (oauth : TossOAuthClient) :
    Program.Triple (Emptied env start) (oauth.fetchToken env)
      (fun token s => Emptied env start s ∧
        FetchedSince env start s.log token.value s.log.length)
      (fun _ => Emptied env start) := by
  refine Program.triple_bind _ (wait_emptied _ _ _) fun _ => ?_
  refine Program.triple_bind (fun response s => Emptied env start s ∧
    ∃ k, start ≤ k ∧ k < s.log.length ∧ seen Event.tokenAnswer s.log k = some response)
    ?_ fun response => ?_
  · refine sendWithStatusRetry_renewed _ (fun _ _ hs => hs.logged rfl)
      (fun _ _ hs => hs.logged rfl) (fun _ _ _ _ hs => hs.logged rfl) ?_
    intro s request response hs
    refine ⟨s.log.length, hs.since, ?_, seen_append_length _ _ _⟩
    rw [State.logged_log, List.length_append]
    exact Nat.lt_succ_self _
  refine Program.triple_bind (fun _ s => Emptied env start s ∧ isSuccess response ∧
    ∃ k, start ≤ k ∧ k < s.log.length ∧ seen Event.tokenAnswer s.log k = some response)
    ?_ fun _ => ?_
  · exact Program.triple_lift
      (fun _ hok _ hs => ⟨hs.1, raiseForStatus_eq_ok_iff.mp hok, hs.2⟩) fun _ _ _ hs => hs.1
  refine Program.triple_bind (fun parsed s => Emptied env start s ∧
    FetchedSince env start s.log parsed.accessToken s.log.length) ?_ fun parsed => ?_
  · refine Program.triple_lift (fun parsed hparsed s hs => ⟨hs.1, ?_⟩) fun _ _ _ hs => hs.1
    obtain ⟨_, hsuccess, k, hstart, hlt, hseen⟩ := hs
    exact ⟨k, hstart, hlt, response, parsed, hseen, hsuccess, hparsed, rfl⟩
  refine Program.triple_bind (fun _ s => Emptied env start s ∧
    FetchedSince env start s.log parsed.accessToken s.log.length) ?_ fun now => ?_
  · refine triple_readClock fun s hs => ⟨hs.1.logged rfl, (hs.2.append _).mono ?_⟩
    rw [State.logged_log, List.length_append]
    omega
  refine Program.triple_bind (fun _ s => Emptied env start s ∧
    FetchedSince env start s.log parsed.accessToken s.log.length) ?_ fun expiresAt => ?_
  · exact triple_dated (fun _ _ _ hs => hs) fun _ _ _ hs => hs.1
  · exact Program.triple_pure fun _ hs => hs

/-- What was sent since event `start` carries new tokens, and so does what will be. -/
structure Renewing (env : Env) (start : Nat) (token : AccessToken) (s : State) : Prop where
  since : start ≤ s.log.length
  renewed : RenewedSince env start s.log
  fetched : FetchedSince env start s.log token.value s.log.length

theorem Renewing.logged {token : AccessToken} {s : State} (h : Renewing env start token s)
    {e : Event} (he : ∀ request, e.resourceRequest = some request →
      request.headers.lookup "Authorization" = some ("Bearer " ++ token.value)) :
    Renewing env start token (s.logged e) := by
  have hlength : (s.logged e).log.length = s.log.length + 1 := by
    rw [State.logged_log, List.length_append, List.length_singleton]
  have hsince := h.since
  refine ⟨by omega, h.renewed.append fun request hrequest => ?_, ?_⟩
  · exact ⟨token.value, he request hrequest, h.fetched⟩
  · exact (h.fetched.append e).mono (by omega)

/-- With an empty cache the token that is taken is a new one. -/
theorem validToken_renewing (oauth : TossOAuthClient) :
    Program.Triple (Emptied env start) (oauth.validToken env) (Renewing env start)
      (fun _ => Emptied env start) := by
  refine Program.triple_bind (fun cached s => cached = none ∧ Emptied env start s)
    (Program.triple_read fun s hs => ⟨hs.empty, hs⟩) fun cached => ?_
  refine Program.triple_of_pure fun hempty => ?_
  subst hempty
  refine Program.triple_bind _ (fetchToken_emptied oauth) fun token => ?_
  refine Program.triple_bind (fun _ => Renewing env start token) ?_ fun _ => ?_
  · exact Program.triple_modify fun s hs => ⟨hs.1.since, hs.1.renewed, hs.2⟩
  · exact Program.triple_pure fun _ hs => hs

/-- A round that starts with an empty cache sends nothing but new tokens. -/
theorem send_renewed (client : TossRestClient) (path : String)
    (params : Option (List (String × PyValue))) (requiresAccount : Bool)
    (group : RateLimitGroup) :
    Program.Triple (Emptied env start) (client.send env path params requiresAccount group)
      (fun _ s => start ≤ s.log.length ∧ RenewedSince env start s.log)
      (fun _ s => start ≤ s.log.length ∧ RenewedSince env start s.log) := by
  have hemptied : ∀ (e : Raised) s, Emptied env start s →
      start ≤ s.log.length ∧ RenewedSince env start s.log := fun _ s hs => ⟨hs.since, hs.renewed⟩
  have hrenewing : ∀ token s, Renewing env start token s →
      start ≤ s.log.length ∧ RenewedSince env start s.log := fun _ s hs => ⟨hs.since, hs.renewed⟩
  refine Program.triple_bind _ ((wait_emptied _ _ _).conseq (fun _ hs => hs) (fun _ _ hs => hs)
    hemptied) fun _ => ?_
  refine Program.triple_bind _ ((validToken_renewing client.oauth).conseq (fun _ hs => hs)
    (fun _ _ hs => hs) hemptied) fun token => ?_
  refine Program.triple_bind _ (TossRestClient.accountHeader_keeps fun _ => hrenewing token)
    fun account => ?_
  refine (sendWithStatusRetry_renewed (I := Renewing env start token) (fun _ _ => True)
    ?_ ?_ ?_ ?_).conseq (fun _ hs => hs) (fun _ s hs => hrenewing token s hs.1)
    fun _ => hrenewing token
  · exact fun _ _ hs => hs.logged nofun
  · exact fun _ _ hs => hs.logged nofun
  · intro s request outcome hheaders hs
    refine hs.logged fun request' hrequest => ?_
    obtain rfl : request = request' := Option.some.inj hrequest
    rw [hheaders]
    rfl
  · exact fun _ _ _ _ => trivial

/-- A call that starts with an empty cache sends nothing but new tokens. -/
theorem get_renewed {client : TossRestClient} {call : Action TossResponseEnvelope}
    (hcall : call ∈ client.calls env) :
    Program.Triple (Emptied env start) call (fun _ s => RenewedSince env start s.log)
      (fun _ s => RenewedSince env start s.log) := by
  obtain ⟨path, params, requiresAccount, group, rfl⟩ := hcall
  refine Program.triple_ite (fun _ => Program.triple_raise fun _ hs => hs.renewed) fun _ => ?_
  refine Program.triple_bind _ ((send_renewed client path params requiresAccount _).conseq
    (fun _ hs => hs) (fun _ _ hs => hs) fun _ _ hs => hs.2) fun first => ?_
  refine Program.triple_bind (fun _ s => RenewedSince env start s.log) ?_ fun response => ?_
  · refine Program.triple_ite (fun _ => ?_) fun _ => Program.triple_pure fun _ hs => hs.2
    refine Program.triple_bind (fun _ => Emptied env start) ?_ fun _ => ?_
    · exact Program.triple_modify fun s hs => ⟨hs.1, hs.2, rfl⟩
    · exact (send_renewed client path params requiresAccount _).conseq (fun _ hs => hs)
        (fun _ _ hs => hs.2) fun _ _ hs => hs.2
  refine Program.triple_bind (fun _ s => RenewedSince env start s.log) ?_ fun _ => ?_
  · exact Program.triple_lift (fun _ _ _ hs => hs) fun _ _ _ hs => hs
  unfold TossRestClient.envelope
  split
  · refine Program.triple_bind (fun _ s => RenewedSince env start s.log) ?_ fun _ => ?_
    · exact triple_readClock fun _ hs => hs.quiet rfl
    · exact Program.triple_pure fun _ hs => hs
  · exact triple_raiseOther fun _ hs => hs

end Programs

theorem emptied_here (env : Env) {s : State} (h : s.cachedToken = none) :
    Emptied env s.log.length s where
  since := le_refl _
  renewed := renewedSince_of_length_le (le_refl _)
  empty := h

/-! ## The course of a call -/

section Course

variable {env : Env} {client : TossRestClient} {path : String}
  {params : Option (List (String × PyValue))} {requiresAccount : Bool}

/-- A round in which no token could be fetched fails as the fetch did, and the cache stays
empty. -/
theorem send_of_fetchToken_error (path : String) (params : Option (List (String × PyValue)))
    (requiresAccount : Bool) {group : RateLimitGroup} {start waited failed : State}
    {e : Raised} (hempty : start.cachedToken = none)
    (hwait : client.throttle.wait env .rest group start = (.ok (), waited))
    (hfetch : client.oauth.fetchToken env waited = (.error e, failed)) :
    client.send env path params requiresAccount group start = (.error e, failed) ∧
      failed.cachedToken = none := by
  have hwaited := (wait_emptied client.throttle .rest group).ok (emptied_here env hempty) hwait
  have hfailed := (fetchToken_emptied client.oauth).error hwaited hfetch
  have hread : Program.read (fun s : State => s.cachedToken) waited =
      ((.ok none : Except Raised _), waited) := by
    rw [Program.read, hwaited.empty]
  have hrenew : client.oauth.renew env waited = (.error e, failed) := Program.bind_of_error hfetch
  have htoken : client.oauth.validToken env waited = (.error e, failed) :=
    (Program.bind_of_ok hread).trans hrenew
  refine ⟨?_, hfailed.empty⟩
  rw [TossRestClient.send, Program.bind_of_ok hwait, Program.bind_of_error htoken]

/-- The ways a call can go, by its rounds. -/
inductive Course (env : Env) (client : TossRestClient) (path : String)
    (params : Option (List (String × PyValue))) (requiresAccount : Bool) (group : RateLimitGroup)
    (start : State) : Except Raised TossResponseEnvelope → State → List Step → Prop
  | failed {e : Raised} {stop : State}
      (hsend : client.send env path params requiresAccount group start = (.error e, stop)) :
      Course env client path params requiresAccount group start (.error e) stop
        [.sent ⟨start, .error e, stop⟩]
  | answered {response : Response} {stop last : State}
      {result : Except Raised TossResponseEnvelope}
      (hsend : client.send env path params requiresAccount group start = (.ok response, stop))
      (hother : response.statusCode ≠ 401)
      (hconclude : TossRestClient.conclude env path response stop = (result, last)) :
      Course env client path params requiresAccount group start result last
        [.sent ⟨start, .ok response, stop⟩]
  | failedAgain {response : Response} {between stop : State} {e : Raised}
      (hsend : client.send env path params requiresAccount group start = (.ok response, between))
      (hrefused : response.statusCode = 401)
      (hagain : client.send env path params requiresAccount group
        { between with cachedToken := none } = (.error e, stop)) :
      Course env client path params requiresAccount group start (.error e) stop
        [.sent ⟨start, .ok response, between⟩, .invalidated,
          .sent ⟨{ between with cachedToken := none }, .error e, stop⟩]
  | answeredAgain {response second : Response} {between stop last : State}
      {result : Except Raised TossResponseEnvelope}
      (hsend : client.send env path params requiresAccount group start = (.ok response, between))
      (hrefused : response.statusCode = 401)
      (hagain : client.send env path params requiresAccount group
        { between with cachedToken := none } = (.ok second, stop))
      (hconclude : TossRestClient.conclude env path second stop = (result, last)) :
      Course env client path params requiresAccount group start result last
        [.sent ⟨start, .ok response, between⟩, .invalidated,
          .sent ⟨{ between with cachedToken := none }, .ok second, stop⟩]

theorem course_recordedGet (env : Env) (path : String)
    (params : Option (List (String × PyValue))) (group : Option RateLimitGroup)
    (haccount : ¬ (requiresAccount = true ∧ client.accountSeq = none)) (s : State) :
    ∃ result stop steps,
      client.recordedGet env path params requiresAccount group (s, []) = (result, stop, steps) ∧
        Course env client path params requiresAccount (group.getD (defaultGroupFor path)) s
          result stop steps := by
  rw [TossRestClient.recordedGet, if_neg haccount]
  show ∃ result stop steps, (client.recordedSend env path params requiresAccount
    (group.getD (defaultGroupFor path)) >>= _) (s, []) = _ ∧ _
  generalize group.getD (defaultGroupFor path) = resolved
  have hrecord : ∀ {start stop answer} (notes : List Step),
      client.send env path params requiresAccount resolved start = (answer, stop) →
        client.recordedSend env path params requiresAccount resolved (start, notes) =
          (answer, stop, notes ++ [.sent ⟨start, answer, stop⟩]) :=
    fun _ hsend => Program.recorded_of_run hsend
  cases hsend : client.send env path params requiresAccount resolved s with
  | mk answer between =>
    cases answer with
    | error e =>
      rw [Program.bind_of_error (hrecord [] hsend)]
      exact ⟨_, _, _, rfl, .failed hsend⟩
    | ok response =>
      rw [Program.bind_of_ok (hrecord [] hsend)]
      by_cases hrefused : response.statusCode = 401
      · have hresend : ∀ start, client.recordedResend env path params requiresAccount resolved
            response start = client.recordedSend env path params requiresAccount resolved
              ({ start.1 with cachedToken := none }, start.2 ++ [.invalidated]) := by
          intro start
          rw [TossRestClient.recordedResend, if_pos hrefused]
          rfl
        cases hagain : client.send env path params requiresAccount resolved
            { between with cachedToken := none } with
        | mk answer stop =>
          cases answer with
          | error e =>
            rw [Program.bind_of_error ((hresend _).trans (hrecord _ hagain))]
            exact ⟨_, _, _, rfl, .failedAgain hsend hrefused hagain⟩
          | ok second =>
            rw [Program.bind_of_ok ((hresend _).trans (hrecord _ hagain))]
            exact ⟨_, _, _, rfl, .answeredAgain hsend hrefused hagain rfl⟩
      · have hkept : ∀ start, client.recordedResend env path params requiresAccount resolved
            response start = (.ok response, start) := by
          intro start
          rw [TossRestClient.recordedResend, if_neg hrefused]
          rfl
        rw [Program.bind_of_ok (hkept _)]
        exact ⟨_, _, _, rfl, .answered hsend hrefused rfl⟩

end Course

/-- What is to be said of a call, given the record of its parts, its result and where it
ended. -/
structure CleanRecovery (env : Env) (client : TossRestClient) (group : RateLimitGroup)
    (steps : List Step) (result : Except Raised TossResponseEnvelope) (stop : State) : Prop where
  rounds_le : (rounds steps).length ≤ 2
  invalidated_le : steps.countP Step.isInvalidated ≤ 1
  /-- The cache is emptied after a first round that ended in 401, and only then. -/
  invalidated_after : ∀ before after, steps = before ++ .invalidated :: after →
    ∃ first response, before = [.sent first] ∧ first.answer = .ok response ∧
      response.statusCode = 401
  again : ∀ first response, (rounds steps)[0]? = some first → first.answer = .ok response →
    response.statusCode = 401 → (rounds steps).length = 2
  /-- What the second round sends carries tokens fetched in it. -/
  renewed : ∀ second, (rounds steps)[1]? = some second →
    second.start.cachedToken = none ∧
      RenewedSince env second.start.log.length second.stop.log
  /-- An exception that a round raises is what the call comes to. -/
  raises : ∀ round ∈ rounds steps, ∀ e, round.answer = .error e → result = .error e
  succeeds : ∀ envelope, result = .ok envelope → ∃ response,
    lastAnswer stop.log = some response ∧ isSuccess response ∧
      env.json response.content = some envelope.payload
  refused_again : ∀ second response, (rounds steps)[1]? = some second →
    second.answer = .ok response → response.statusCode = 401 →
      ∃ e, result = .error e ∧ e.cls = .app .tossAuthenticationError
  /-- A refresh that fails is what the call comes to. -/
  not_refreshed : ∀ second waited failed e, (rounds steps)[1]? = some second →
    client.throttle.wait env .rest group second.start = (.ok (), waited) →
      client.oauth.fetchToken env waited = (.error e, failed) →
        result = .error e ∧ stop = failed ∧ stop.cachedToken = none
  /-- A call that follows one with an empty cache fetches a token before it sends one. -/
  next_renewed : stop.cachedToken = none → ∀ call ∈ client.calls env,
    RenewedSince env stop.log.length (call stop).2.log

section Course

variable {env : Env} {client : TossRestClient} {path : String}
  {params : Option (List (String × PyValue))} {requiresAccount : Bool}

theorem next_renewed {stop : State} (hempty : stop.cachedToken = none)
    {call : Action TossResponseEnvelope} (hcall : call ∈ client.calls env) :
    RenewedSince env stop.log.length (call stop).2.log := by
  cases hrun : call stop with
  | mk result last =>
    cases result with
    | ok envelope => exact (get_renewed hcall).ok (emptied_here env hempty) hrun
    | error e => exact (get_renewed hcall).error (emptied_here env hempty) hrun

/-- A 401 that comes through is raised as one. -/
theorem conclude_of_refused (env : Env) (path : String) {response : Response}
    (h : response.statusCode = 401) (s : State) :
    ∃ e, (TossRestClient.conclude env path response s).1 = .error e ∧
      e.cls = .app .tossAuthenticationError := by
  have hfailed : ¬ isSuccess response := by
    intro hsuccess
    have hlt := hsuccess.2
    omega
  rw [TossRestClient.conclude, raiseForStatus, if_neg hfailed, if_pos h]
  exact ⟨_, rfl, rfl⟩

theorem succeeds_of_send {group : RateLimitGroup} {start between stop : State}
    {response : Response} {result : Except Raised TossResponseEnvelope}
    (hsend : client.send env path params requiresAccount group start = (.ok response, between))
    (hconclude : TossRestClient.conclude env path response between = (result, stop))
    (envelope : TossResponseEnvelope) (hresult : result = .ok envelope) :
    ∃ response, lastAnswer stop.log = some response ∧ isSuccess response ∧
      env.json response.content = some envelope.payload := by
  subst hresult
  have hlast := (send_lastAnswer client path params requiresAccount group).ok trivial hsend
  exact conclude_lastAnswer.ok hlast hconclude

theorem renewed_of_send {group : RateLimitGroup} {start stop : State}
    {answer : Except Raised Response} (hempty : start.cachedToken = none)
    (hsend : client.send env path params requiresAccount group start = (answer, stop)) :
    RenewedSince env start.log.length stop.log := by
  have hhere := emptied_here env hempty
  have hrenewed := @send_renewed env start.log.length client path params requiresAccount group
  cases answer with
  | ok response => exact (hrenewed.ok hhere hsend).2
  | error e => exact (hrenewed.error hhere hsend).2

theorem cleanRecovery_of_none {group : RateLimitGroup} {e : Raised} {stop : State} :
    CleanRecovery env client group [] (.error e) stop where
  rounds_le := Nat.zero_le 2
  invalidated_le := Nat.zero_le 1
  invalidated_after before after hsteps := by simp at hsteps
  again first _ hfirst := by cases hfirst
  renewed second hsecond := by cases hsecond
  raises round hround := by cases hround
  succeeds envelope hok := by cases hok
  refused_again second _ hsecond := by cases hsecond
  not_refreshed second _ _ _ hsecond := by cases hsecond
  next_renewed hempty _ hcall := next_renewed hempty hcall

/-- A record with one round has nothing to say of an invalidation or a second round. -/
theorem cleanRecovery_of_single {group : RateLimitGroup} {round : Round} {stop : State}
    {result : Except Raised TossResponseEnvelope}
    (hagain : ∀ response, round.answer = .ok response → response.statusCode ≠ 401)
    (hraises : ∀ e, round.answer = .error e → result = .error e)
    (hsucceeds : ∀ envelope, result = .ok envelope → ∃ response,
      lastAnswer stop.log = some response ∧ isSuccess response ∧
        env.json response.content = some envelope.payload) :
    CleanRecovery env client group [.sent round] result stop where
  rounds_le := Nat.le_succ 1
  invalidated_le := Nat.zero_le 1
  invalidated_after := by
    intro before after hsteps
    rcases before with _ | ⟨first, _ | _⟩ <;> simp at hsteps
  again := by
    intro first response hfirst hanswer hrefused
    obtain rfl : round = first := Option.some.inj hfirst
    exact absurd hrefused (hagain response hanswer)
  renewed second hsecond := by cases hsecond
  raises := by
    intro round' hround
    obtain rfl : round' = round := List.mem_singleton.mp hround
    exact hraises
  succeeds := hsucceeds
  refused_again second _ hsecond := by cases hsecond
  not_refreshed second _ _ _ hsecond := by cases hsecond
  next_renewed hempty _ hcall := next_renewed hempty hcall

/-- A record with a second round, by what it came to. -/
theorem cleanRecovery_of_again {group : RateLimitGroup} {first : Round} {response : Response}
    (hanswer : first.answer = .ok response) (hrefused : response.statusCode = 401)
    {start between stop : State} {answer : Except Raised Response}
    {result : Except Raised TossResponseEnvelope} (hempty : start.cachedToken = none)
    (hsend : client.send env path params requiresAccount group start = (answer, between))
    (hsucceeds : ∀ envelope, result = .ok envelope → ∃ response,
      lastAnswer stop.log = some response ∧ isSuccess response ∧
        env.json response.content = some envelope.payload)
    (hagain : ∀ response, answer = .ok response → response.statusCode = 401 →
      ∃ e, result = .error e ∧ e.cls = .app .tossAuthenticationError)
    (hfailed : ∀ e, answer = .error e → result = .error e ∧ stop = between) :
    CleanRecovery env client group
      [.sent first, .invalidated, .sent ⟨start, answer, between⟩] result stop where
  rounds_le := Nat.le_refl 2
  invalidated_le := Nat.le_refl 1
  invalidated_after := by
    intro before after hsteps
    rcases before with _ | ⟨step, _ | ⟨step', _ | _⟩⟩ <;> simp at hsteps
    exact ⟨first, response, by rw [hsteps.1], hanswer, hrefused⟩
  again _ _ _ _ _ := rfl
  renewed := by
    intro second hsecond
    obtain rfl : _ = second := Option.some.inj hsecond
    exact ⟨hempty, renewed_of_send hempty hsend⟩
  raises := by
    intro round hround e he
    have hmem : round ∈ [first, ⟨start, answer, between⟩] := hround
    rw [List.mem_pair] at hmem
    rcases hmem with rfl | rfl
    · rw [hanswer] at he
      cases he
    · exact (hfailed e he).1
  succeeds := hsucceeds
  refused_again := by
    intro second response' hsecond hanswer' hrefused'
    obtain rfl : _ = second := Option.some.inj hsecond
    exact hagain response' hanswer' hrefused'
  not_refreshed := by
    intro second waited failed e hsecond hwait hfetch
    obtain rfl : _ = second := Option.some.inj hsecond
    obtain ⟨hround, hstays⟩ :=
      send_of_fetchToken_error path params requiresAccount hempty hwait hfetch
    obtain ⟨hanswer', hbetween⟩ := Prod.mk.inj (hsend.symm.trans hround)
    obtain ⟨hresult, hstop⟩ := hfailed e hanswer'
    rw [hstop, hbetween]
    exact ⟨hresult, rfl, hstays⟩
  next_renewed hempty _ hcall := next_renewed hempty hcall

/-- Whatever is cached and whatever the endpoints answer, a call recovers from a 401 by one
refresh. -/
theorem get_recovers_cleanly (env : Env) (client : TossRestClient) (path : String)
    (params : Option (List (String × PyValue))) (requiresAccount : Bool)
    (group : Option RateLimitGroup) (s : State) :
    ∃ result stop steps,
      client.recordedGet env path params requiresAccount group (s, []) = (result, stop, steps) ∧
        client.get env path params requiresAccount group s = (result, stop) ∧
          CleanRecovery env client (group.getD (defaultGroupFor path)) steps result stop := by
  have herases := client.erases_recordedGet env path params requiresAccount group s []
  by_cases haccount : requiresAccount = true ∧ client.accountSeq = none
  · -- the call is refused before anything is sent
    obtain ⟨e, hget⟩ : ∃ e, client.get env path params requiresAccount group s =
        (.error e, s) := by
      rw [TossRestClient.get, if_pos haccount]
      exact ⟨_, rfl⟩
    refine ⟨.error e, s, [], ?_, hget, cleanRecovery_of_none⟩
    rw [TossRestClient.recordedGet, if_pos haccount]
    exact Program.unrecorded_of_run hget
  · obtain ⟨result, stop, steps, hrun, hcourse⟩ :=
      course_recordedGet env path params group haccount s
    rw [hrun] at herases
    refine ⟨result, stop, steps, hrun, Prod.ext herases.1.symm herases.2.symm, ?_⟩
    cases hcourse with
    | failed hsend =>
      refine cleanRecovery_of_single nofun ?_ nofun
      intro e he
      cases he
      rfl
    | answered hsend hother hconclude =>
      refine cleanRecovery_of_single ?_ nofun (succeeds_of_send hsend hconclude)
      intro response hanswer
      cases hanswer
      exact hother
    | failedAgain hsend hrefused hagain =>
      refine cleanRecovery_of_again rfl hrefused rfl hagain nofun nofun ?_
      intro e he
      cases he
      exact ⟨rfl, rfl⟩
    | @answeredAgain _ _ _ ended _ _ hsend hrefused hagain hconclude =>
      refine cleanRecovery_of_again rfl hrefused rfl hagain (succeeds_of_send hagain hconclude)
        ?_ nofun
      intro response hanswer hrefused'
      cases hanswer
      have he := conclude_of_refused env path hrefused' ended
      rw [hconclude] at he
      exact he

end Course

end Toss
end QuantPlatform
