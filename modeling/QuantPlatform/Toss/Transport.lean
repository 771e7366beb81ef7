/-
The retry policy of the transport.

A call makes up to `max_retries + 1` attempts, with a delay after each failed one.  The delay
is computed in the numbers of the policy and handed to the client's `sleep_fn`.  Neither is
checked, and either may raise, after which no attempt is made; nothing else ends the loop
before its budget is spent, and nothing makes it longer.
-/
import QuantPlatform.Toss.Errors
import QuantPlatform.Toss.Traffic

namespace QuantPlatform
namespace Toss

open QuantPlatform.Core Effects

/-- `NO_RETRY_POLICY`. -/
def noRetryPolicy : RetryPolicy := { maxRetries := 0 }

/-- `**` and `*` of the type that a policy's numbers have, and the seconds they stand for. -/
structure DelayArithmetic (F : Type) where
  power : F → Nat → Except Raised F
  mul : F → F → F
  toFloat : F → PyFloat

/-- The backoff of a policy, and the `sleep_fn` of a client. -/
structure Backoff (F : Type) where
  arithmetic : DelayArithmetic F
  backoffBaseSeconds : F
  backoffMultiplier : F
  /-- By the number of events before the call, too. -/
  sleepFn : Nat → F → Except Raised Unit

namespace Backoff

variable {F : Type} (backoff : Backoff F)

/-- `backoff_base_seconds * (backoff_multiplier**attempt)`. -/
def delay (attempt : Nat) : Except Raised F := do
  let power ← backoff.arithmetic.power backoff.backoffMultiplier attempt
  return backoff.arithmetic.mul backoff.backoffBaseSeconds power

/-- The seconds of a delay that can be computed. -/
def seconds (attempt : Nat) : PyFloat :=
  ((backoff.delay attempt).map backoff.arithmetic.toFloat).toOption.getD .nan

def pause (attempt : Nat) : Action Unit := do
  let delay ← Program.lift (backoff.delay attempt)
  let n ← emit (.slept (backoff.arithmetic.toFloat delay))
  Program.lift (backoff.sleepFn n delay)

variable {backoff} {attempt : Nat} {s s' : State} {d : F}

theorem seconds_of_delay (h : backoff.delay attempt = .ok d) :
    backoff.seconds attempt = backoff.arithmetic.toFloat d := by
  rw [seconds, h]
  rfl

theorem pause_of_uncomputed {e : Raised} (h : backoff.delay attempt = .error e) :
    backoff.pause attempt s = (.error e, s) := by
  rw [pause, h]
  rfl

theorem pause_of_delay (h : backoff.delay attempt = .ok d) :
    backoff.pause attempt s =
      (backoff.sleepFn s.log.length d, s.logged (.slept (backoff.seconds attempt))) := by
  rw [seconds_of_delay h, pause, h]
  rfl

/-- A pause that ends was computed and slept. -/
theorem delay_of_pause (h : backoff.pause attempt s = (.ok (), s')) :
    (∃ d, backoff.delay attempt = .ok d) ∧
      s' = s.logged (.slept (backoff.seconds attempt)) := by
  cases hdelay : backoff.delay attempt with
  | error e =>
    rw [pause_of_uncomputed hdelay] at h
    cases (Prod.mk.inj h).1
  | ok d =>
    rw [pause_of_delay hdelay] at h
    exact ⟨⟨d, rfl⟩, (Prod.mk.inj h).2.symm⟩

end Backoff

/-- Exact numbers, and `time.sleep`. -/
def RetryPolicy.exactBackoff (policy : RetryPolicy) : Backoff ℚ where
  arithmetic := { power := fun q n => .ok (q ^ n), mul := fun p q => p * q, toFloat := .finite }
  backoffBaseSeconds := policy.backoffBaseSeconds
  backoffMultiplier := policy.backoffMultiplier
  sleepFn _ delay :=
    match sleepError (.finite delay) with
    | some error => .error { cls := .other error.1, text := error.2 }
    | none => .ok ()

theorem RetryPolicy.sleepFn_exactBackoff {policy : RetryPolicy} {delay : ℚ}
    (h : sleepError (.finite delay) = none) (n : Nat) :
    policy.exactBackoff.sleepFn n delay = .ok () := by
  unfold exactBackoff
  simp only [h]

theorem RetryPolicy.pause_exactBackoff (policy : RetryPolicy) (attempt : Nat) :
    policy.exactBackoff.pause attempt = sleep (.finite (policy.backoff attempt)) := by
  funext s
  rw [Backoff.pause_of_delay rfl]
  unfold sleep
  rw [Program.bind_of_ok (emit_apply _ _)]
  show (policy.exactBackoff.sleepFn s.log.length (policy.backoff attempt), _) = _
  cases hsleep : sleepError (.finite (policy.backoff attempt)) with
  | none =>
    rw [sleepFn_exactBackoff hsleep]
    rfl
  | some error =>
    unfold exactBackoff
    simp only [hsleep]
    rfl

namespace BaseApiClient

/-- What every attempt of a call sends. -/
def outgoing (client : BaseApiClient) (method path : String)
    (params : Option (List (String × PyValue))) (headers : List (String × String))
    (data : Option (List (String × String))) : Request :=
  { method, url := client.url path, timeoutSeconds := client.policy.timeoutSeconds
    params, headers, data }

/-- `request(method, path, **kwargs)` with the arithmetic and the `sleep_fn` left open, and
with what stands after the loop. -/
def requestWith {F : Type} (env : Env) (client : BaseApiClient) (backoff : Backoff F)
    (afterwards : Action Response) (errand : Errand) (method path : String)
    (params : Option (List (String × PyValue))) (headers : List (String × String))
    (data : Option (List (String × String))) : Action Response :=
  Program.retrying (transmit env errand (client.outgoing method path params headers data))
    (client.judge (client.url path)) backoff.pause client.policy.maxRetries afterwards
    (List.range (client.policy.maxRetries + 1))

/-- The call of exact arithmetic is one of these. -/
theorem request_eq_requestWith (env : Env) (client : BaseApiClient) (errand : Errand)
    (method path : String) (params : Option (List (String × PyValue)))
    (headers : List (String × String)) (data : Option (List (String × String))) :
    client.request env errand method path params headers data =
      client.requestWith env client.policy.exactBackoff
        (raiseOther (.other "AssertionError", "unreachable")) errand method path params headers
        data := by
  have hpause : client.policy.exactBackoff.pause =
      fun attempt => sleep (.finite (client.policy.backoff attempt)) :=
    funext client.policy.pause_exactBackoff
  rw [requestWith, hpause]
  exact attempts_eq_retrying _

end BaseApiClient

/-- The outcome of attempt `i` of a call from `s`: a failed attempt and its sleep are two
events. -/
def outcomeAt (env : Env) (s : State) (i : Nat) : Outcome := env.transport (s.log.length + 2 * i)

/-- Any outcomes may follow one another. -/
theorem exists_outcomeAt_eq (env : Env) (s : State) (outcomes : Nat → Outcome) :
    ∃ transport, ∀ i, outcomeAt { env with transport } s i = outcomes i := by
  refine ⟨fun n => outcomes ((n - s.log.length) / 2), fun i => ?_⟩
  show outcomes ((s.log.length + 2 * i - s.log.length) / 2) = outcomes i
  rw [Nat.add_sub_cancel_left, Nat.mul_div_cancel_left i Nat.two_pos]

namespace RetryPolicy

/-- The policy does not let this outcome be returned. -/
def Fails (policy : RetryPolicy) : Outcome → Prop
  | .timeout _ => True
  | .httpError _ => True
  | .response response => response.statusCode ∈ policy.retryStatusCodes

end RetryPolicy

/-- The exception type of a failed outcome. -/
def failureClass : Outcome → AppClass
  | .timeout _ => .externalAPITimeoutError
  | .httpError _ => .externalAPIError
  | .response _ => .externalAPIRetryExhaustedError

theorem BaseApiClient.fails_of_judge {client : BaseApiClient} {url : String} {outcome : Outcome}
    {e : Raised} (h : client.judge url outcome = .error e) :
    client.policy.Fails outcome ∧ e.cls = .app (failureClass outcome) := by
  cases outcome with
  | timeout text =>
    cases h
    exact ⟨trivial, rfl⟩
  | httpError text =>
    cases h
    exact ⟨trivial, rfl⟩
  | response response =>
    have hretried := (judge_error h).2 response rfl
    rw [judge, if_neg (not_not.mpr hretried)] at h
    cases h
    exact ⟨hretried, rfl⟩

section Calls

variable {F : Type} (env : Env) (policy : RetryPolicy) (backoff : Backoff F) (errand : Errand)
  (request : Request) (s : State)

/-- The events of `k` failed attempts from `s`. -/
def failedAttempts (k : Nat) : List Event :=
  (List.range k).flatMap fun i =>
    [.sent errand request (outcomeAt env s i), .slept (backoff.seconds i)]

/-- `k` attempts failed, and the delay after each was computed and slept. -/
structure SleptOver (k : Nat) (t : State) : Prop where
  failed : ∀ i < k, policy.Fails (outcomeAt env s i)
  delays : ∀ i < k, ∃ d, backoff.delay i = .ok d
  log : t.log = s.log ++ failedAttempts env backoff errand request s k

/-- The call sent `n` requests and ended with the last one. -/
structure Honoured (n : Nat) (result : Except Raised Response) (stop : State) : Prop where
  one_le : 1 ≤ n
  le : n ≤ policy.maxRetries + 1
  failed : ∀ i < n - 1, policy.Fails (outcomeAt env s i)
  delays : ∀ i < n - 1, ∃ d, backoff.delay i = .ok d
  log : stop.log = s.log ++ failedAttempts env backoff errand request s (n - 1) ++
    [.sent errand request (outcomeAt env s (n - 1))]
  requests : requestCount stop.log = requestCount s.log + n
  sleeps : stop.log.filterMap Event.sleeping =
    s.log.filterMap Event.sleeping ++ (List.range (n - 1)).map backoff.seconds
  returns_iff : ∀ response, result = .ok response ↔
    outcomeAt env s (n - 1) = .response response ∧
      response.statusCode ∉ policy.retryStatusCodes
  raises : ∀ e, result = .error e →
    n = policy.maxRetries + 1 ∧ e.cls = .app (failureClass (outcomeAt env s (n - 1)))

/-- The call sent `n` requests, all of which failed, and ended with an exception of the delay
after the last: computing it raised, or `sleep_fn` did. -/
structure Interrupted (n : Nat) (result : Except Raised Response) (stop : State) : Prop where
  one_le : 1 ≤ n
  le : n ≤ policy.maxRetries
  failed : ∀ i < n, policy.Fails (outcomeAt env s i)
  delays : ∀ i < n - 1, ∃ d, backoff.delay i = .ok d
  requests : requestCount stop.log = requestCount s.log + n
  raised : ∃ e, result = .error e ∧
    (backoff.delay (n - 1) = .error e ∧
        stop.log = s.log ++ failedAttempts env backoff errand request s (n - 1) ++
          [.sent errand request (outcomeAt env s (n - 1))] ∨
      ∃ d, backoff.delay (n - 1) = .ok d ∧
        backoff.sleepFn (s.log.length + (2 * (n - 1) + 1)) d = .error e ∧
        stop.log = s.log ++ failedAttempts env backoff errand request s n)

variable {env policy backoff errand request s}

theorem failedAttempts_succ (k : Nat) :
    failedAttempts env backoff errand request s (k + 1) =
      failedAttempts env backoff errand request s k ++
        [.sent errand request (outcomeAt env s k), .slept (backoff.seconds k)] := by
  rw [failedAttempts, List.range_succ, List.flatMap_append]
  rfl

theorem length_failedAttempts (k : Nat) :
    (failedAttempts env backoff errand request s k).length = 2 * k := by
  induction k with
  | zero => rfl
  | succ k ih =>
    rw [failedAttempts_succ, List.length_append, ih]
    rfl

theorem requestCount_failedAttempts (k : Nat) :
    requestCount (failedAttempts env backoff errand request s k) = k := by
  induction k with
  | zero => rfl
  | succ k ih =>
    rw [failedAttempts_succ, requestCount, List.countP_append, ← requestCount, ih]
    rfl

theorem sleeping_failedAttempts (k : Nat) :
    (failedAttempts env backoff errand request s k).filterMap Event.sleeping =
      (List.range k).map backoff.seconds := by
  induction k with
  | zero => rfl
  | succ k ih =>
    rw [failedAttempts_succ, List.filterMap_append, ih, List.range_succ, List.map_append]
    rfl

/-! ## Attempt by attempt -/

namespace SleptOver

variable {k : Nat} {t : State}

/-- The state after the next request. -/
def heard (env : Env) (errand : Errand) (request : Request) (s t : State) (k : Nat) : State :=
  t.logged (.sent errand request (outcomeAt env s k))

theorem transmit_eq (h : SleptOver env policy backoff errand request s k t)
    (hsends : env.unsendable request = none) :
    transmit env errand request t =
      (.ok (outcomeAt env s k), heard env errand request s t k) := by
  have hposition : env.transport t.log.length = outcomeAt env s k := by
    rw [h.log, List.length_append, length_failedAttempts]
    rfl
  rw [transmit_eq_ok hsends, hposition]
  rfl

theorem eq_of_transmit (h : SleptOver env policy backoff errand request s k t)
    (hsends : env.unsendable request = none) {outcome : Outcome} {t' : State}
    (hsend : transmit env errand request t = (.ok outcome, t')) :
    outcome = outcomeAt env s k ∧ t' = heard env errand request s t k := by
  rw [h.transmit_eq hsends] at hsend
  obtain ⟨houtcome, hstate⟩ := Prod.mk.inj hsend
  exact ⟨(Except.ok.inj houtcome).symm, hstate.symm⟩

theorem start : SleptOver env policy backoff errand request s 0 s where
  failed i hi := absurd hi (Nat.not_lt_zero i)
  delays i hi := absurd hi (Nat.not_lt_zero i)
  log := (List.append_nil s.log).symm

theorem log_heard (h : SleptOver env policy backoff errand request s k t) :
    (heard env errand request s t k).log =
      s.log ++ failedAttempts env backoff errand request s k ++
        [.sent errand request (outcomeAt env s k)] := by
  rw [heard, State.logged_log, h.log]

theorem log_slept (h : SleptOver env policy backoff errand request s k t) :
    ((heard env errand request s t k).logged (.slept (backoff.seconds k))).log =
      s.log ++ failedAttempts env backoff errand request s (k + 1) := by
  rw [State.logged_log, h.log_heard, failedAttempts_succ, List.append_assoc, List.append_assoc]
  rfl

theorem failed_succ (h : SleptOver env policy backoff errand request s k t)
    (hfails : policy.Fails (outcomeAt env s k)) :
    ∀ i < k + 1, policy.Fails (outcomeAt env s i) := by
  intro i hi
  rcases Nat.lt_succ_iff_lt_or_eq.mp hi with hbefore | hlast
  · exact h.failed i hbefore
  · rw [hlast]
    exact hfails

theorem again (h : SleptOver env policy backoff errand request s k t)
    (hfails : policy.Fails (outcomeAt env s k)) (hdelay : ∃ d, backoff.delay k = .ok d) :
    SleptOver env policy backoff errand request s (k + 1)
      ((heard env errand request s t k).logged (.slept (backoff.seconds k))) where
  failed := h.failed_succ hfails
  delays i hi := by
    rcases Nat.lt_succ_iff_lt_or_eq.mp hi with hbefore | hlast
    · exact h.delays i hbefore
    · rw [hlast]
      exact hdelay
  log := h.log_slept

theorem requestCount_heard (h : SleptOver env policy backoff errand request s k t) :
    requestCount (heard env errand request s t k).log = requestCount s.log + (k + 1) := by
  have hrounds : requestCount (failedAttempts env backoff errand request s k) = k :=
    requestCount_failedAttempts k
  rw [h.log_heard, requestCount_append]
  show requestCount _ + 1 = _
  rw [requestCount, List.countP_append, ← requestCount, ← requestCount, hrounds, Nat.add_assoc]

/-- The next request is the last, whatever comes of it. -/
theorem honoured (h : SleptOver env policy backoff errand request s k t)
    (hk : k ≤ policy.maxRetries) {result : Except Raised Response}
    (hreturns : ∀ response, result = .ok response ↔ outcomeAt env s k = .response response ∧
      response.statusCode ∉ policy.retryStatusCodes)
    (hraises : ∀ e, result = .error e →
      k = policy.maxRetries ∧ e.cls = .app (failureClass (outcomeAt env s k))) :
    Honoured env policy backoff errand request s (k + 1) result
      (heard env errand request s t k) where
  one_le := Nat.succ_le_succ (Nat.zero_le k)
  le := Nat.succ_le_succ hk
  failed := h.failed
  delays := h.delays
  log := h.log_heard
  requests := h.requestCount_heard
  sleeps := by
    rw [h.log_heard, List.filterMap_append, List.filterMap_append, sleeping_failedAttempts]
    exact List.append_nil _
  returns_iff := hreturns
  raises e he := ⟨congrArg (· + 1) (hraises e he).1, (hraises e he).2⟩

/-- The pause after the next request raises. -/
theorem interrupted (h : SleptOver env policy backoff errand request s k t)
    (hk : k < policy.maxRetries) (hfails : policy.Fails (outcomeAt env s k)) {e : Raised}
    {stop : State} (hpause : backoff.pause k (heard env errand request s t k) = (.error e, stop)) :
    Interrupted env policy backoff errand request s (k + 1) (.error e) stop := by
  have hlength : (heard env errand request s t k).log.length =
      s.log.length + (2 * k + 1) := by
    rw [h.log_heard, List.length_append, List.length_append, length_failedAttempts]
    rfl
  cases hdelay : backoff.delay k with
  | error e' =>
    rw [Backoff.pause_of_uncomputed hdelay] at hpause
    obtain ⟨he, rfl⟩ := Prod.mk.inj hpause
    cases he
    exact {
      one_le := Nat.succ_le_succ (Nat.zero_le k)
      le := hk
      failed := h.failed_succ hfails
      delays := h.delays
      requests := h.requestCount_heard
      raised := ⟨e, rfl, Or.inl ⟨hdelay, h.log_heard⟩⟩ }
  | ok d =>
    rw [Backoff.pause_of_delay hdelay, hlength] at hpause
    obtain ⟨hsleep, rfl⟩ := Prod.mk.inj hpause
    exact {
      one_le := Nat.succ_le_succ (Nat.zero_le k)
      le := hk
      failed := h.failed_succ hfails
      delays := h.delays
      requests := (requestCount_append _ _).trans h.requestCount_heard
      raised := ⟨e, rfl, Or.inr ⟨d, hdelay, hsleep, h.log_slept⟩⟩ }

end SleptOver

/-! ## Whole calls -/

variable {client : BaseApiClient} {url : String} {k : Nat} {t : State}

theorem sleptOver_of_rounds (hsends : env.unsendable request = none)
    (h : Program.Rounds (transmit env errand request) (client.judge url) backoff.pause s k t) :
    SleptOver env client.policy backoff errand request s k t := by
  induction h with
  | start => exact .start
  | again _ hsend hverdict hpause ih =>
    obtain ⟨rfl, rfl⟩ := ih.eq_of_transmit hsends hsend
    obtain ⟨hdelay, rfl⟩ := Backoff.delay_of_pause hpause
    exact ih.again (BaseApiClient.fails_of_judge hverdict).1 hdelay

theorem honoured_or_interrupted_of_ends (hsends : env.unsendable request = none)
    (hk : k ≤ client.policy.maxRetries)
    (h : SleptOver env client.policy backoff errand request s k t)
    {result : Except Raised Response} {stop : State}
    (hends : Program.Ends (transmit env errand request) (client.judge url) backoff.pause
      client.policy.maxRetries k t result stop) :
    Honoured env client.policy backoff errand request s (k + 1) result stop ∨
      Interrupted env client.policy backoff errand request s (k + 1) result stop := by
  cases hends with
  | unsent hsend =>
    rw [h.transmit_eq hsends] at hsend
    cases (Prod.mk.inj hsend).1
  | returned hsend hverdict =>
    obtain ⟨rfl, rfl⟩ := h.eq_of_transmit hsends hsend
    refine Or.inl (h.honoured hk (fun response => ?_) fun e he => ?_)
    · rw [← BaseApiClient.judge_eq_ok_iff, hverdict]
    · cases he
  | exhausted hlast hsend hverdict =>
    obtain ⟨rfl, rfl⟩ := h.eq_of_transmit hsends hsend
    refine Or.inl (h.honoured hk (fun response => ?_) fun e he => ?_)
    · rw [← BaseApiClient.judge_eq_ok_iff, hverdict]
    · cases he
      exact ⟨hlast, (BaseApiClient.fails_of_judge hverdict).2⟩
  | interrupted hbefore hsend hverdict hpause =>
    obtain ⟨rfl, rfl⟩ := h.eq_of_transmit hsends hsend
    exact Or.inr (h.interrupted hbefore (BaseApiClient.fails_of_judge hverdict).1 hpause)

/-- A delay that can always be slept interrupts nothing. -/
theorem not_interrupted_of_sleepable
    (hsleeps : ∀ i < policy.maxRetries, ∃ d, backoff.delay i = .ok d ∧
      ∀ m, backoff.sleepFn m d = .ok ()) {n : Nat} {result : Except Raised Response}
    {stop : State} : ¬ Interrupted env policy backoff errand request s n result stop := by
  intro h
  have hone := h.one_le
  have hle := h.le
  obtain ⟨d, hdelay, hsleep⟩ := hsleeps (n - 1) (by omega)
  obtain ⟨e, _, ⟨huncomputed, _⟩ | ⟨d', hdelay', hraised, _⟩⟩ := h.raised
  · rw [hdelay] at huncomputed
    cases huncomputed
  · rw [hdelay] at hdelay'
    cases hdelay'
    rw [hsleep] at hraised
    cases hraised

end Calls

section Policy

variable {F : Type} (env : Env) (client : BaseApiClient) (backoff : Backoff F)
  (afterwards : Action Response) (errand : Errand) (method path : String)
  (params : Option (List (String × PyValue))) (headers : List (String × String))
  (data : Option (List (String × String))) (s : State)

theorem requestWith_honoured_or_interrupted
    (hsends : env.unsendable (client.outgoing method path params headers data) = none) :
    let run := client.requestWith env backoff afterwards errand method path params headers data s
    ∃ n, Honoured env client.policy backoff errand
        (client.outgoing method path params headers data) s n run.1 run.2 ∨
      Interrupted env client.policy backoff errand
        (client.outgoing method path params headers data) s n run.1 run.2 := by
  intro run
  obtain ⟨k, hk, t, hrounds, hends⟩ := Program.retrying_ends s
  exact ⟨k + 1, honoured_or_interrupted_of_ends hsends hk (sleptOver_of_rounds hsends hrounds)
    hends⟩

/-- The call sends its requests as the policy says unless a delay raises. -/
theorem request_honours_policy
    (hsends : env.unsendable (client.outgoing method path params headers data) = none) :
    let request := client.outgoing method path params headers data
    let run := client.requestWith env backoff afterwards errand method path params headers data s
    (∃ n, Honoured env client.policy backoff errand request s n run.1 run.2 ∨
      Interrupted env client.policy backoff errand request s n run.1 run.2) ∧
    ((∀ i < client.policy.maxRetries, ∃ d, backoff.delay i = .ok d ∧
        ∀ m, backoff.sleepFn m d = .ok ()) →
      ∃ n, Honoured env client.policy backoff errand request s n run.1 run.2) ∧
    (client.policy = noRetryPolicy →
      run.2.log = s.log ++ [.sent errand request (outcomeAt env s 0)] ∧
        Honoured env client.policy backoff errand request s 1 run.1 run.2) ∧
    ∀ other, client.requestWith env backoff other errand method path params headers data s =
      run := by
  intro request run
  obtain ⟨n, h⟩ := requestWith_honoured_or_interrupted env client backoff afterwards errand method
    path params headers data s hsends
  refine ⟨⟨n, h⟩, fun hsleeps => ?_, fun hpolicy => ?_, fun other => ?_⟩
  · rcases h with honoured | hinterrupted
    · exact ⟨n, honoured⟩
    · exact absurd hinterrupted (not_interrupted_of_sleepable hsleeps)
  · have hnone : client.policy.maxRetries = 0 := congrArg RetryPolicy.maxRetries hpolicy
    rcases h with honoured | hinterrupted
    · have hlow := honoured.one_le
      have hhigh := honoured.le
      obtain rfl : n = 1 := by omega
      refine ⟨?_, honoured⟩
      rw [honoured.log]
      exact congrArg (· ++ _) (List.append_nil s.log)
    · have hlow := hinterrupted.one_le
      have hhigh := hinterrupted.le
      omega
  · exact congrFun (Program.retrying_congr other).symm s

end Policy

/-- A client that goes by the default policy. -/
def pingClient : BaseApiClient := { baseUrl := "https://example.test" }

/-- The first request times out, the second finds the service unavailable. -/
def flakyEnv : Env :=
  sampleEnv (fun _ => 0) (fun _ => 0) 0 fun n =>
    if n < 2 then .timeout "timed out" else if n < 4 then answered 503 [] [] else answered 200 [] []

theorem third_request_answered :
    let request := pingClient.outgoing "GET" "/flaky" none [] none
    let run := pingClient.requestWith flakyEnv pingClient.policy.exactBackoff
      (raiseOther (.other "AssertionError", "unreachable")) sampleErrand "GET" "/flaky" none []
      none State.fresh
    (∃ n, Honoured flakyEnv pingClient.policy pingClient.policy.exactBackoff sampleErrand request
      State.fresh n run.1 run.2) ∧ requestCount run.2.log = 3 := by
  intro request run
  refine ⟨(request_honours_policy flakyEnv pingClient pingClient.policy.exactBackoff _ sampleErrand
    "GET" "/flaky" none [] none State.fresh rfl).2.1 fun i hi => ⟨_, rfl, fun m => ?_⟩, ?_⟩
  · exact RetryPolicy.sleepFn_exactBackoff
      (sleepError_backoff "https://example.test" 10 (m := 3) (by omega) hi) m
  · decide +kernel

/-- A first delay of ten billion seconds, which `time.sleep` refuses. -/
def patientClient : BaseApiClient :=
  { baseUrl := "https://example.test", policy := { backoffBaseSeconds := 10 ^ 10 } }

def silentEnv : Env := sampleEnv (fun _ => 0) (fun _ => 0) 0 fun _ => .timeout "timed out"

theorem long_delay_ends_the_call :
    let run := patientClient.request silentEnv sampleErrand "GET" "/times-out" none [] none
      State.fresh
    requestCount run.2.log = 1 ∧ raisedClass run.1 = some (.other .overflowError) ∧
      ¬ ∃ n, Honoured silentEnv patientClient.policy patientClient.policy.exactBackoff
        sampleErrand (patientClient.outgoing "GET" "/times-out" none [] none) State.fresh n
        run.1 run.2 := by
  intro run
  have hclass : raisedClass run.1 = some (.other .overflowError) := by
    decide +kernel
  refine ⟨by decide +kernel, hclass, ?_⟩
  intro h
  obtain ⟨n, honoured⟩ := h
  cases hresult : run.1 with
  | ok response =>
    rw [hresult] at hclass
    cases hclass
  | error e =>
    rw [hresult] at hclass
    have happ := (honoured.raises e hresult).2
    rw [Option.some.inj hclass] at happ
    cases happ

end Toss
end QuantPlatform
