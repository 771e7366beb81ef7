import QuantPlatform.Toss.HttpClient

namespace QuantPlatform
namespace Toss

open QuantPlatform.Core Effects

def retryableStatusCodes : List Nat := [429, 500, 502, 503, 504]

/-- `body.get("code")`, else `body.get("error")` or its own `code`. -/
def errorCodeOf (entries : List (String × PyValue)) : Option String :=
  match entries.lookup "code" with
  | some (.str code) => some code
  | _ =>
      match entries.lookup "error" with
      | some (.str error) => some error
      | some (.dict error) =>
          match error.lookup "code" with
          | some (.str nestedCode) => some nestedCode
          | _ => none
      | _ => none

def extractErrorCode (env : Env) (response : Response) : Option String :=
  match env.json response.content with
  | some (.dict entries) => errorCodeOf entries
  | _ => none

def extractRetryAfterSeconds (response : Response) : Option PyFloat :=
  (response.header "Retry-After").bind PyFloat.ofStr

def isSuccess (response : Response) : Prop :=
  200 ≤ response.statusCode ∧ response.statusCode < 300

instance (response : Response) : Decidable (isSuccess response) := by
  unfold isSuccess
  infer_instance

def raiseForStatus (env : Env) (response : Response) (context : String) : Except Raised Unit :=
  let errorCode := extractErrorCode env response
  if isSuccess response then .ok ()
  else if response.statusCode = 401 then
    .error {
      cls := .app .tossAuthenticationError
      text := context ++ ": authentication failed (401)"
      statusCode := some 401, errorCode }
  else if response.statusCode = 403 then
    .error {
      cls := .app .tossIpRestrictedError
      text := context ++ ": request forbidden (403) - possibly an unregistered " ++
        "caller IP; see the Open API allow-list setting"
      statusCode := some 403, errorCode }
  else if response.statusCode = 429 then
    .error {
      cls := .app .tossRateLimitError
      text := context ++ ": rate limit exceeded (429)"
      statusCode := some 429, errorCode, retryAfter := extractRetryAfterSeconds response }
  else if 500 ≤ response.statusCode ∧ response.statusCode < 600 then
    .error {
      cls := .app .tossServerError
      text := context ++ ": server error (" ++ toString response.statusCode ++ ")"
      statusCode := some response.statusCode, errorCode }
  else
    .error {
      cls := .app .tossApiError
      text := context ++ ": unexpected status " ++ toString response.statusCode
      statusCode := some response.statusCode, errorCode }

theorem raiseForStatus_eq_ok_iff {env : Env} {response : Response} {context : String} :
    raiseForStatus env response context = .ok () ↔ isSuccess response := by
  unfold raiseForStatus
  by_cases hsuccess : isSuccess response
  · simp [hsuccess]
  · simp only [hsuccess, if_false, iff_false]
    split_ifs <;> simp

/-- Whatever it raises is one of the Toss errors, with the status it is for. -/
theorem raiseForStatus_error {env : Env} {response : Response} {context : String} {e : Raised}
    (h : raiseForStatus env response context = .error e) :
    e.IsAppError ∧ e.statusCode = some response.statusCode := by
  unfold raiseForStatus at h
  split_ifs at h with _ h401 h403 h429
  · cases h
    exact ⟨Raised.isAppError_of_app rfl, by rw [h401]⟩
  · cases h
    exact ⟨Raised.isAppError_of_app rfl, by rw [h403]⟩
  · cases h
    exact ⟨Raised.isAppError_of_app rfl, by rw [h429]⟩
  · cases h
    exact ⟨Raised.isAppError_of_app rfl, rfl⟩
  · cases h
    exact ⟨Raised.isAppError_of_app rfl, rfl⟩

theorem not_isSuccess_of_retryable {response : Response}
    (h : response.statusCode ∈ retryableStatusCodes) : ¬ isSuccess response := by
  intro hsuccess
  have hlt := hsuccess.2
  simp only [retryableStatusCodes, List.mem_cons, List.not_mem_nil, or_false] at h
  omega

/-- The retry budget and backoff of a client. -/
structure StatusRetry where
  maxRetries : Nat := 3
  backoffBaseSeconds : ℚ := 1 / 2
  backoffMultiplier : ℚ := 2
  deriving DecidableEq, Repr

namespace StatusRetry

/-- The delay after the answer to an attempt. -/
def delay (retry : StatusRetry) (attempt : Nat) (response : Response) : PyFloat :=
  let retryAfter :=
    if response.statusCode = 429 then extractRetryAfterSeconds response else none
  retryAfter.getD (.finite (retry.backoffBaseSeconds * retry.backoffMultiplier ^ attempt))

/-- The attempts still to be made, and the answer to the last one. -/
def attempts (retry : StatusRetry) (send : Action Response) :
    List Nat → Option Response → Action Response
  | [], some response => return response
  | [], none => raiseOther (.other "UnboundLocalError", "response")
  | attempt :: rest, _ => do
      let response ← send
      if response.statusCode ∉ retryableStatusCodes ∨ attempt = retry.maxRetries then
        return response
      else do
        sleep (retry.delay attempt response)
        retry.attempts send rest (some response)

/-- `send_with_status_retry`, where `send` is `base_client.request(method, path, **kwargs)`. -/
def sendWithStatusRetry (retry : StatusRetry) (send : Action Response) : Action Response :=
  retry.attempts send (List.range (retry.maxRetries + 1)) none

section Rule

variable {retry : StatusRetry} {send : Action Response} {Q : Response → State → Prop}
  {E : Raised → State → Prop}

theorem triple_attempts {Ready : Nat → State → Prop} (Got : Nat → Response → State → Prop)
    (hsend : ∀ attempt ≤ retry.maxRetries,
      Program.Triple (Ready attempt) send (Got attempt) E)
    (hreturn : ∀ attempt response, attempt ≤ retry.maxRetries →
      ∀ s, Got attempt response s → Q response s)
    (hagain : ∀ response attempt, response.statusCode ∈ retryableStatusCodes →
      attempt < retry.maxRetries →
      Program.Triple (Got attempt response) (sleep (retry.delay attempt response))
        (fun _ => Ready (attempt + 1)) E)
    (left attempt : Nat) (hlast : attempt + left = retry.maxRetries) (last : Option Response) :
    Program.Triple (Ready attempt)
      (retry.attempts send (List.range' attempt (left + 1)) last) Q E := by
  induction left generalizing attempt last with
  | zero =>
    rw [Nat.add_zero] at hlast
    refine Program.triple_bind (Got attempt) (hsend attempt hlast.le) fun response => ?_
    refine Program.triple_ite (fun _ => Program.triple_pure ?_)
      fun hgo => absurd (Or.inr hlast) hgo
    exact hreturn attempt response hlast.le
  | succ left ih =>
    refine Program.triple_bind (Got attempt) (hsend attempt (by omega)) fun response => ?_
    refine Program.triple_ite (fun _ => Program.triple_pure ?_) fun hgo => ?_
    · exact hreturn attempt response (by omega)
    rw [not_or, not_not] at hgo
    refine Program.triple_bind _ (hagain response attempt hgo.1 (by omega)) fun _ => ?_
    exact ih (attempt + 1) (by omega) (some response)

/-- What holds may depend on the attempt. -/
theorem triple_sendWithStatusRetry_at (Ready : Nat → State → Prop)
    (Got : Nat → Response → State → Prop)
    (hsend : ∀ attempt ≤ retry.maxRetries,
      Program.Triple (Ready attempt) send (Got attempt) E)
    (hreturn : ∀ attempt response, attempt ≤ retry.maxRetries →
      ∀ s, Got attempt response s → Q response s)
    (hagain : ∀ response attempt, response.statusCode ∈ retryableStatusCodes →
      attempt < retry.maxRetries →
      Program.Triple (Got attempt response) (sleep (retry.delay attempt response))
        (fun _ => Ready (attempt + 1)) E) :
    Program.Triple (Ready 0) (retry.sendWithStatusRetry send) Q E := by
  unfold sendWithStatusRetry
  rw [List.range_eq_range']
  exact triple_attempts Got hsend hreturn hagain retry.maxRetries 0 (Nat.zero_add _) none

/-- The loop returns what it got last: what holds before an attempt holds again
after the delay that follows a retried answer. -/
theorem triple_sendWithStatusRetry {Ready : State → Prop} (Got : Response → State → Prop)
    (hsend : Program.Triple Ready send Got E)
    (hreturn : ∀ response s, Got response s → Q response s)
    (hagain : ∀ response attempt, response.statusCode ∈ retryableStatusCodes →
      attempt < retry.maxRetries →
      Program.Triple (Got response) (sleep (retry.delay attempt response)) (fun _ => Ready) E) :
    Program.Triple Ready (retry.sendWithStatusRetry send) Q E :=
  triple_sendWithStatusRetry_at (fun _ => Ready) (fun _ => Got) (fun _ _ => hsend)
    (fun _ response _ => hreturn response) hagain

end Rule

end StatusRetry

end Toss
end QuantPlatform
