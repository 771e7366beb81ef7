/-
How many requests one `send_with_status_retry` makes.

The loop over statuses and the loop under it over timeouts and network errors have the
same number of retries.  Each answer may take all the attempts of the inner loop, and
each attempt of the outer loop takes an answer, so the numbers multiply.  They add up to
one loop's where every request is answered, or no answer is retried.
-/
import QuantPlatform.Toss.Client

namespace QuantPlatform
namespace Toss

open QuantPlatform.Core Effects

def Event.isSent : Event → Bool
  | .sent _ _ _ => true
  | _ => false

def requestCount (log : List Event) : Nat := log.countP Event.isSent

theorem requestCount_append (log : List Event) (e : Event) :
    requestCount (log ++ [e]) = requestCount log + if e.isSent then 1 else 0 := by
  rw [requestCount, List.countP_append, List.countP_singleton]
  rfl

/-- The `BaseApiClient` that a client makes for itself. -/
def ownHttpClient (baseUrl : String) (timeoutSeconds : ℚ) (maxRetries : Nat) : BaseApiClient where
  baseUrl := baseUrl
  policy := { timeoutSeconds, maxRetries, retryStatusCodes := [] }

section Counts

variable {env : Env} {errand : Errand}

theorem sleep_requestCount (n : Nat) (seconds : PyFloat) :
    Program.Triple (fun s => requestCount s.log ≤ n) (sleep seconds)
      (fun _ s => requestCount s.log ≤ n) (fun _ s => requestCount s.log ≤ n) := by
  have hslept : ∀ s : State, requestCount (s.logged (.slept seconds)).log = requestCount s.log :=
    fun s => requestCount_append s.log _
  refine triple_sleep (fun _ s hs => ?_) fun _ _ s hs => ?_
  · rw [hslept]
    exact hs
  · rw [hslept]
    exact hs

theorem transmit_requestCount (n : Nat) (request : Request) :
    Program.Triple (fun s => requestCount s.log ≤ n) (transmit env errand request)
      (fun _ s => requestCount s.log ≤ n + 1) (fun _ s => requestCount s.log ≤ n) := by
  refine triple_transmit (fun _ s hs => ?_) fun _ _ s hs => ?_
  · rw [State.logged_log, requestCount_append]
    exact Nat.succ_le_succ hs
  · rw [State.logged_log, requestCount_append]
    exact hs

section Request

variable {http : BaseApiClient} {method path : String}
  {params : Option (List (String × PyValue))} {headers : List (String × String)}
  {data : Option (List (String × String))}

theorem request_requestCount (n : Nat) :
    Program.Triple (fun s => requestCount s.log ≤ n)
      (http.request env errand method path params headers data)
      (fun _ s => requestCount s.log ≤ n + (http.policy.maxRetries + 1))
      (fun _ s => requestCount s.log ≤ n + (http.policy.maxRetries + 1)) := by
  refine BaseApiClient.triple_request_at (fun attempt s => requestCount s.log ≤ n + attempt)
    (fun attempt _ s => requestCount s.log ≤ n + (attempt + 1)) ?_ ?_ ?_ ?_
  · intro attempt hle request _ _
    refine (transmit_requestCount (n + attempt) request).conseq (fun _ hs => hs)
      (fun _ _ hs => hs) fun _ s hs => ?_
    omega
  · intro attempt outcome response _ hle s hs
    omega
  · exact fun _ _ _ _ hs => hs
  · intro outcome e attempt _ hlt
    refine (sleep_requestCount (n + (attempt + 1)) _).conseq (fun _ hs => hs)
      (fun _ _ hs => hs) fun _ s hs => ?_
    omega

/-- One request suffices where it is answered and the policy retries no status. -/
theorem request_requestCount_of_answered (hpolicy : http.policy.retryStatusCodes = [])
    (hanswered : ∀ k, ∃ response, env.transport k = .response response) (n : Nat) :
    Program.Triple (fun s => requestCount s.log ≤ n)
      (http.request env errand method path params headers data)
      (fun _ s => requestCount s.log ≤ n + 1) (fun _ s => requestCount s.log ≤ n + 1) := by
  refine BaseApiClient.triple_request
    (fun outcome s => (∃ response, outcome = .response response) ∧ requestCount s.log ≤ n + 1)
    ?_ (fun _ _ _ _ hs => hs.2) (fun _ _ _ _ hs => hs.2) ?_
  · intro request _ _
    refine triple_transmit (fun _ s hs => ⟨hanswered _, ?_⟩) fun _ _ s hs => ?_
    · rw [State.logged_log, requestCount_append]
      exact Nat.succ_le_succ hs
    · rw [State.logged_log, requestCount_append]
      exact Nat.le_succ_of_le hs
  · intro outcome e attempt hjudge _
    refine Program.triple_of_pure fun hresponse => ?_
    obtain ⟨response, rfl⟩ := hresponse
    have hretried := (BaseApiClient.judge_error hjudge).2 response rfl
    rw [hpolicy] at hretried
    cases hretried

theorem request_answer {p : Response → Prop}
    (hanswers : ∀ k response, env.transport k = .response response → p response) :
    Program.Triple (fun _ => True) (http.request env errand method path params headers data)
      (fun response _ => p response) (fun _ _ => True) := by
  refine BaseApiClient.triple_request
    (fun outcome _ => ∀ response, outcome = .response response → p response)
    ?_ ?_ (fun _ _ _ _ _ => trivial) fun _ _ _ _ _ => ?_
  · intro request _ _
    exact triple_transmit (fun _ s _ response hresponse => hanswers _ response hresponse)
      fun _ _ _ _ => trivial
  · intro outcome response hjudge s hs
    exact hs response (BaseApiClient.judge_eq_ok_iff.mp hjudge).1
  · exact triple_sleep (fun _ _ _ => trivial) fun _ _ _ _ => trivial

end Request

section Loop

variable {retry : StatusRetry} {send : Action Response} {k : Nat}
  (hsend : ∀ n, Program.Triple (fun s => requestCount s.log ≤ n) send
    (fun _ s => requestCount s.log ≤ n + k) (fun _ s => requestCount s.log ≤ n + k))

include hsend

/-- Every attempt of the loop may take as many requests as one. -/
theorem sendWithStatusRetry_requestCount (n : Nat) :
    Program.Triple (fun s => requestCount s.log ≤ n) (retry.sendWithStatusRetry send)
      (fun _ s => requestCount s.log ≤ n + (retry.maxRetries + 1) * k)
      (fun _ s => requestCount s.log ≤ n + (retry.maxRetries + 1) * k) := by
  have hgrow : ∀ attempt ≤ retry.maxRetries, n + attempt * k + k ≤
      n + (retry.maxRetries + 1) * k := by
    intro attempt hle
    have hmul : (attempt + 1) * k ≤ (retry.maxRetries + 1) * k :=
      Nat.mul_le_mul_right k (Nat.succ_le_succ hle)
    rw [Nat.succ_mul] at hmul
    omega
  refine Program.Triple.conseq (StatusRetry.triple_sendWithStatusRetry_at
    (fun attempt s => requestCount s.log ≤ n + attempt * k)
    (fun attempt _ s => requestCount s.log ≤ n + attempt * k + k) ?_ ?_ ?_)
    (fun s hs => ?_) (fun _ _ hs => hs) fun _ _ hs => hs
  · intro attempt hle
    refine (hsend (n + attempt * k)).conseq (fun _ hs => hs) (fun _ _ hs => hs) fun _ s hs => ?_
    exact hs.trans (hgrow attempt hle)
  · exact fun attempt _ hle s hs => hs.trans (hgrow attempt hle)
  · intro response attempt _ hlt
    have hnext : n + attempt * k + k = n + (attempt + 1) * k := by
      rw [Nat.succ_mul, Nat.add_assoc]
    rw [← hnext]
    refine (sleep_requestCount _ _).conseq (fun _ hs => hs) (fun _ _ hs => hs) fun _ s hs => ?_
    exact hs.trans (hgrow attempt hlt.le)
  · rw [Nat.zero_mul, Nat.add_zero]
    exact hs

/-- A loop whose answers are not retried makes one attempt. -/
theorem sendWithStatusRetry_requestCount_of_final
    (hfinal : Program.Triple (fun _ => True) send
      (fun response _ => response.statusCode ∉ retryableStatusCodes) (fun _ _ => True))
    (n : Nat) :
    Program.Triple (fun s => requestCount s.log ≤ n) (retry.sendWithStatusRetry send)
      (fun _ s => requestCount s.log ≤ n + k) (fun _ s => requestCount s.log ≤ n + k) := by
  refine StatusRetry.triple_sendWithStatusRetry
    (fun response s => requestCount s.log ≤ n + k ∧ response.statusCode ∉ retryableStatusCodes)
    ?_ (fun _ _ hs => hs.1) ?_
  · exact ((hsend n).and hfinal).conseq (fun _ hs => ⟨hs, trivial⟩) (fun _ _ hs => hs)
      fun _ _ hs => hs.1
  · exact fun response attempt hretried _ s hs => absurd hretried hs.2

end Loop

end Counts

section Exhausted

variable {env : Env} {errand : Errand} {http : BaseApiClient} {req : Request}

theorem sleep_eq_ok {seconds : PyFloat} (h : sleepError seconds = none) (s : State) :
    sleep seconds s = (.ok (), s.logged (.slept seconds)) := by
  rw [sleep, Program.bind_of_ok (emit_apply _ _), h]
  rfl

theorem transmit_eq_ok (h : env.unsendable req = none) (s : State) :
    transmit env errand req s = (.ok (env.transport s.log.length),
      s.logged (.sent errand req (env.transport s.log.length))) := by
  rw [transmit, h]
  rfl

/-- An attempt that times out and is not the last is slept over. -/
theorem attempts_of_timeout (hsend : env.unsendable req = none) {s : State} {text : String}
    (htimeout : env.transport s.log.length = .timeout text) {attempt : Nat}
    (hlast : attempt ≠ http.policy.maxRetries)
    (hsleep : sleepError (.finite (http.policy.backoff attempt)) = none) (rest : List Nat) :
    http.attempts env errand req (attempt :: rest) s =
      http.attempts env errand req rest
        ((s.logged (.sent errand req (.timeout text))).logged
          (.slept (.finite (http.policy.backoff attempt)))) := by
  have htransmit : transmit env errand req s =
      (.ok (.timeout text), s.logged (.sent errand req (.timeout text))) := by
    rw [transmit_eq_ok hsend, htimeout]
  rw [BaseApiClient.attempts_eq_retrying, BaseApiClient.attempts_eq_retrying,
    Program.retrying_of_ne hlast htransmit rfl, Program.bind_of_ok (sleep_eq_ok hsleep _)]

theorem attempts_of_response (hsend : env.unsendable req = none)
    (hpolicy : http.policy.retryStatusCodes = []) {s : State} {response : Response}
    (hresponse : env.transport s.log.length = .response response) (attempt : Nat)
    (rest : List Nat) :
    http.attempts env errand req (attempt :: rest) s =
      (.ok response, s.logged (.sent errand req (.response response))) := by
  have hjudge : http.judge req.url (.response response) = .ok response :=
    BaseApiClient.judge_eq_ok_iff.mpr ⟨rfl, by rw [hpolicy]; exact List.not_mem_nil⟩
  have htransmit : transmit env errand req s =
      (.ok (.response response), s.logged (.sent errand req (.response response))) := by
    rw [transmit_eq_ok hsend, hresponse]
  rw [BaseApiClient.attempts_eq_retrying, Program.retrying_of_ok htransmit hjudge]

/-- What a part of the run adds to the log: so many events and so many requests. -/
structure Adds (s s' : State) (events requests : Nat) : Prop where
  length : s'.log.length = s.log.length + events
  requests : requestCount s'.log = requestCount s.log + requests

theorem Adds.trans {s s' s'' : State} {m m' n n' : Nat} (h : Adds s s' m n)
    (h' : Adds s' s'' m' n') : Adds s s'' (m + m') (n + n') := by
  have hlength := h.length
  have hlength' := h'.length
  have hrequests := h.requests
  have hrequests' := h'.requests
  exact ⟨by omega, by omega⟩

theorem adds_logged (s : State) (e : Event) :
    Adds s (s.logged e) 1 (if e.isSent then 1 else 0) where
  length := by rw [State.logged_log, List.length_append, List.length_singleton]
  requests := requestCount_append s.log e

/-- The attempts of the inner loop time out but for the last, which is answered. -/
theorem attempts_of_timeouts (hsend : env.unsendable req = none)
    (hpolicy : http.policy.retryStatusCodes = []) (text : String) {response : Response}
    (hsleep : ∀ k < http.policy.maxRetries,
      sleepError (.finite (http.policy.backoff k)) = none)
    (left attempt : Nat) (hlast : attempt + left = http.policy.maxRetries) {s : State}
    (htimeouts : ∀ k < left, env.transport (s.log.length + 2 * k) = .timeout text)
    (hresponse : env.transport (s.log.length + 2 * left) = .response response) :
    ∃ s', http.attempts env errand req (List.range' attempt (left + 1)) s = (.ok response, s') ∧
      Adds s s' (2 * left + 1) (left + 1) := by
  induction left generalizing attempt s with
  | zero =>
    exact ⟨_, attempts_of_response hsend hpolicy hresponse attempt [], adds_logged s _⟩
  | succ left ih =>
    have htimeout : env.transport s.log.length = .timeout text := htimeouts 0 (Nat.succ_pos left)
    have hadds := (adds_logged s (.sent errand req (.timeout text))).trans
      (adds_logged _ (.slept (.finite (http.policy.backoff attempt))))
    have hlength := hadds.length
    have hshift : ∀ k, s.log.length + (1 + 1) + 2 * k = s.log.length + 2 * (k + 1) :=
      fun k => by omega
    obtain ⟨s', hrun, hrest⟩ := ih (attempt + 1) (by omega)
      (fun k hk => by rw [hlength, hshift, htimeouts (k + 1) (by omega)])
      (by rw [hlength, hshift, hresponse])
    refine ⟨s', ?_, ?_⟩
    · rw [List.range'_succ, attempts_of_timeout hsend htimeout (by omega)
        (hsleep attempt (by omega)), hrun]
    · have hboth := hadds.trans hrest
      refine ⟨hboth.length.trans (by omega), hboth.requests.trans ?_⟩
      show _ + (1 + 0 + (left + 1)) = _
      omega

end Exhausted

/-- Of every `m + 1` requests the last is answered with a 503 and the others time out. -/
def busyEnv (m : Nat) : Env :=
  sampleEnv (fun _ => 0) (fun _ => 0) 0 fun n =>
    if (n / 2 + 1) % (m + 1) = 0 then answered 503 [] [] else .timeout "timed out"

section Busy

variable {m : Nat} {errand : Errand} {method path : String}
  {params : Option (List (String × PyValue))} {headers : List (String × String)}
  {data : Option (List (String × String))}

theorem transport_busyEnv_of_timeout (i : Nat) {k : Nat} (hk : k < m) :
    (busyEnv m).transport (2 * ((m + 1) * i) + 2 * k) = .timeout "timed out" := by
  have hposition : (2 * ((m + 1) * i) + 2 * k) / 2 + 1 = k + 1 + (m + 1) * i := by omega
  show (if _ then _ else _ : Outcome) = _
  rw [hposition, Nat.add_mul_mod_self_left, Nat.mod_eq_of_lt (by omega)]
  exact if_neg (by omega)

theorem transport_busyEnv_of_answer (i : Nat) :
    (busyEnv m).transport (2 * ((m + 1) * i) + 2 * m) = answered 503 [] [] := by
  have hposition : (2 * ((m + 1) * i) + 2 * m) / 2 + 1 = (m + 1) + (m + 1) * i := by omega
  show (if _ then _ else _ : Outcome) = _
  rw [hposition, Nat.add_mul_mod_self_left, Nat.mod_self]
  exact if_pos rfl

/-- The doubling backoff of the first 34 retries can be slept. -/
theorem sleepError_backoff (baseUrl : String) (timeoutSeconds : ℚ) (hm : m ≤ 34) {k : Nat}
    (hk : k < m) :
    sleepError (.finite ((ownHttpClient baseUrl timeoutSeconds m).policy.backoff k)) = none := by
  have hlow : (0 : ℚ) ≤ 2 ^ k := by positivity
  have hhigh : (2 : ℚ) ^ k ≤ 2 ^ 33 := pow_le_pow_right₀ (by norm_num) (by omega)
  norm_num at hhigh
  show (if _ then _ else _ : Option (Exn × String)) = none
  show (if 1 / 2 * (2 : ℚ) ^ k * 1000000000 < -2 ^ 63 ∨
    2 ^ 63 - 1 < 1 / 2 * (2 : ℚ) ^ k * 1000000000 then _ else
      if 1 / 2 * (2 : ℚ) ^ k < 0 then _ else none : Option (Exn × String)) = none
  rw [if_neg, if_neg]
  · rw [not_lt]
    positivity
  · rw [not_or, not_lt, not_lt]
    constructor
    · linarith
    · linarith

variable {retry : StatusRetry} {baseUrl : String} {timeoutSeconds : ℚ}

theorem request_busyEnv (hm : m ≤ 34) (i : Nat) {s : State}
    (hlength : s.log.length = 2 * ((m + 1) * i)) :
    ∃ s', (ownHttpClient baseUrl timeoutSeconds m).request (busyEnv m) errand method path params
        headers data s = (.ok { statusCode := 503, headers := [], content := [] }, s') ∧
      Adds s s' (2 * m + 1) (m + 1) := by
  rw [BaseApiClient.request, List.range_eq_range']
  refine attempts_of_timeouts rfl rfl "timed out"
    (fun k hk => sleepError_backoff _ _ hm hk) m 0 (Nat.zero_add m) (fun k hk => ?_) ?_
  · rw [hlength, transport_busyEnv_of_timeout i hk]
  · rw [hlength, transport_busyEnv_of_answer i]
    rfl

/-- An answer that is retried and is not the last is slept over. -/
theorem attempts_of_retried {send : Action Response} {response : Response} {s s' : State}
    (hrun : send s = (.ok response, s')) (hretried : response.statusCode ∈ retryableStatusCodes)
    {attempt : Nat} (hlast : attempt ≠ retry.maxRetries)
    (hsleep : sleepError (retry.delay attempt response) = none) (rest : List Nat)
    (last : Option Response) :
    retry.attempts send (attempt :: rest) last s =
      retry.attempts send rest (some response)
        (s'.logged (.slept (retry.delay attempt response))) := by
  rw [StatusRetry.attempts, Program.bind_of_ok hrun,
    if_neg (not_or.mpr ⟨not_not.mpr hretried, hlast⟩), Program.bind_of_ok (sleep_eq_ok hsleep _)]

/-- Both loops double their backoff from half a second. -/
theorem delay_eq_backoff (k : Nat) :
    StatusRetry.delay { maxRetries := m } k { statusCode := 503, headers := [], content := [] } =
      .finite ((ownHttpClient baseUrl timeoutSeconds m).policy.backoff k) := by
  rw [StatusRetry.delay, if_neg (by decide), Option.getD_none]
  rfl

/-- Each attempt of the outer loop takes all those of the inner one. -/
theorem attempts_busyEnv (hm : m ≤ 34) (left attempt : Nat) (hlast : attempt + left = m)
    (last : Option Response) {s : State} (hlength : s.log.length = 2 * ((m + 1) * attempt)) :
    ∃ response s', StatusRetry.attempts { maxRetries := m }
        ((ownHttpClient baseUrl timeoutSeconds m).request (busyEnv m) errand method path params
          headers data) (List.range' attempt (left + 1)) last s = (.ok response, s') ∧
      requestCount s'.log = requestCount s.log + (left + 1) * (m + 1) := by
  induction left generalizing attempt last s with
  | zero =>
    obtain ⟨s', hrun, hadds⟩ := request_busyEnv hm attempt hlength
    rw [Nat.add_zero] at hlast
    refine ⟨{ statusCode := 503, headers := [], content := [] }, s', ?_,
      hadds.requests.trans (by omega)⟩
    rw [List.range'_succ, StatusRetry.attempts, Program.bind_of_ok hrun, if_pos (Or.inr hlast)]
    rfl
  | succ left ih =>
    obtain ⟨s₁, hrun, hadds⟩ := request_busyEnv hm attempt hlength
    have hslept := hadds.trans (adds_logged s₁ (.slept (StatusRetry.delay { maxRetries := m }
      attempt { statusCode := 503, headers := [], content := [] })))
    obtain ⟨response, s', hrest, hcount⟩ := ih (attempt + 1) (by omega)
      (some { statusCode := 503, headers := [], content := [] })
      (hslept.length.trans (by rw [hlength, Nat.mul_succ]; omega))
    refine ⟨response, s', ?_, ?_⟩
    · have hsleep := sleepError_backoff baseUrl timeoutSeconds hm
        (show attempt < m by omega)
      rw [← delay_eq_backoff] at hsleep
      rw [List.range'_succ, attempts_of_retried hrun (by decide) (by show attempt ≠ m; omega)
        hsleep, hrest]
    · rw [hcount, hslept.requests, Nat.succ_mul (left + 1)]
      show _ + (m + 1 + 0) + _ = _
      omega

end Busy

/-! ## The bound -/

/-- One send over a client's own `BaseApiClient`, which has the same number of retries. -/
def ownSend (env : Env) (errand : Errand) (retry : StatusRetry) (baseUrl : String)
    (timeoutSeconds : ℚ) (method path : String) (params : Option (List (String × PyValue)))
    (headers : List (String × String)) (data : Option (List (String × String))) :
    Action Response :=
  retry.sendWithStatusRetry ((ownHttpClient baseUrl timeoutSeconds retry.maxRetries).request
    env errand method path params headers data)

/-- With one retry four requests can be made. -/
theorem one_retry_makes_four_requests :
    requestCount (ownSend (busyEnv 1) { party := .rest, group := .stock, token := none }
        { maxRetries := 1 } "https://x" 10 "GET" "/p" none [] none State.fresh).2.log = 4 ∧
      ¬ 4 ≤ requestCount State.fresh.log + (1 + 1) := by
  decide +kernel

/-- A send takes at most the square of one loop's requests and can take as many; it takes
one loop's where every request is answered or no answer is retried. -/
theorem send_requests (errand : Errand) (baseUrl : String) (timeoutSeconds : ℚ)
    (method path : String) (params : Option (List (String × PyValue)))
    (headers : List (String × String)) (data : Option (List (String × String))) :
    (∀ (env : Env) (retry : StatusRetry) (s : State),
      let stop := (ownSend env errand retry baseUrl timeoutSeconds method path params headers
        data s).2
      requestCount stop.log ≤
          requestCount s.log + (retry.maxRetries + 1) * (retry.maxRetries + 1) ∧
        ((∀ k, ∃ response, env.transport k = .response response) →
          requestCount stop.log ≤ requestCount s.log + (retry.maxRetries + 1)) ∧
        ((∀ k response, env.transport k = .response response →
            response.statusCode ∉ retryableStatusCodes) →
          requestCount stop.log ≤ requestCount s.log + (retry.maxRetries + 1))) ∧
      ∀ m ≤ 34, ∃ env response stop,
        ownSend env errand { maxRetries := m } baseUrl timeoutSeconds method path params headers
            data State.fresh = (.ok response, stop) ∧
          requestCount stop.log = (m + 1) * (m + 1) := by
  constructor
  · intro env retry s
    refine ⟨?_, fun hanswered => ?_, fun hfinal => ?_⟩
    · exact (sendWithStatusRetry_requestCount request_requestCount _).holds_after
        (le_refl (requestCount s.log))
    · have honce : requestCount (ownSend env errand retry baseUrl timeoutSeconds method path
          params headers data s).2.log ≤ requestCount s.log + (retry.maxRetries + 1) * 1 :=
        (sendWithStatusRetry_requestCount (request_requestCount_of_answered rfl hanswered)
          _).holds_after (le_refl (requestCount s.log))
      rwa [Nat.mul_one] at honce
    · exact (sendWithStatusRetry_requestCount_of_final request_requestCount
        (request_answer hfinal) _).holds_after (le_refl (requestCount s.log))
  · intro m hm
    obtain ⟨response, stop, hrun, hcount⟩ :=
      attempts_busyEnv hm m 0 (Nat.zero_add m) none (show State.fresh.log.length = _ from rfl)
    refine ⟨busyEnv m, response, stop, ?_, hcount.trans (Nat.zero_add _)⟩
    rw [ownSend, StatusRetry.sendWithStatusRetry, List.range_eq_range']
    exact hrun

end Toss
end QuantPlatform
