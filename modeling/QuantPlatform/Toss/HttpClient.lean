import QuantPlatform.Effects.Retrying
import QuantPlatform.Toss.World

namespace QuantPlatform
namespace Toss

open QuantPlatform.Core Effects

structure RetryPolicy where
  timeoutSeconds : ℚ := 10
  maxRetries : Nat := 3
  backoffBaseSeconds : ℚ := 1 / 2
  backoffMultiplier : ℚ := 2
  retryStatusCodes : List Nat := [408, 429, 500, 502, 503, 504]
  deriving DecidableEq, Repr

def RetryPolicy.backoff (policy : RetryPolicy) (attempt : Nat) : ℚ :=
  policy.backoffBaseSeconds * policy.backoffMultiplier ^ attempt

structure BaseApiClient where
  baseUrl : String
  policy : RetryPolicy := {}
  deriving DecidableEq, Repr

namespace BaseApiClient

def isSlash (c : Char) : Bool := c = Char.ofNat 47

/-- `f"{base_url.rstrip('/')}/{path.lstrip('/')}"`. -/
def url (client : BaseApiClient) (path : String) : String :=
  String.ofList ((client.baseUrl.toList.reverse.dropWhile isSlash).reverse) ++ "/" ++
    String.ofList (path.toList.dropWhile isSlash)

/-- The response of an attempt, or what the last attempt raises. -/
def judge (client : BaseApiClient) (url : String) : Outcome → Except Raised Response
  | .timeout text =>
      .error {
        cls := .app .externalAPITimeoutError
        text := "Timed out calling " ++ url
        cause := some { cls := .other (.other "httpx.TimeoutException"), text } }
  | .httpError text =>
      .error {
        cls := .app .externalAPIError
        text := "Network error calling " ++ url ++ ": " ++ text
        cause := some { cls := .other (.other "httpx.HTTPError"), text } }
  | .response response =>
      if response.statusCode ∉ client.policy.retryStatusCodes then .ok response
      else
        .error {
          cls := .app .externalAPIRetryExhaustedError
          text := "Exhausted retries calling " ++ url ++
            " (last status=" ++ toString response.statusCode ++ ")" }

theorem judge_eq_ok_iff {client : BaseApiClient} {url : String} {outcome : Outcome}
    {response : Response} :
    client.judge url outcome = .ok response ↔
      outcome = .response response ∧ response.statusCode ∉ client.policy.retryStatusCodes := by
  cases outcome with
  | timeout text => simp [judge]
  | httpError text => simp [judge]
  | response response' =>
    simp only [judge]
    split_ifs with hretried
    · constructor
      · intro h
        cases h
      · intro h
        cases h.1
        exact absurd hretried h.2
    · constructor
      · intro h
        cases h
        exact ⟨rfl, hretried⟩
      · intro h
        cases h.1
        rfl

/-- A failed attempt raises an application error, and had an answer only if the policy
retries its status. -/
theorem judge_error {client : BaseApiClient} {url : String} {outcome : Outcome} {e : Raised}
    (h : client.judge url outcome = .error e) :
    e.IsAppError ∧ ∀ response, outcome = .response response →
      response.statusCode ∈ client.policy.retryStatusCodes := by
  cases outcome with
  | timeout text =>
    cases h
    exact ⟨Raised.isAppError_of_app rfl, fun response hresponse => nomatch hresponse⟩
  | httpError text =>
    cases h
    exact ⟨Raised.isAppError_of_app rfl, fun response hresponse => nomatch hresponse⟩
  | response response' =>
    simp only [judge] at h
    split_ifs at h with hretried
    cases h
    refine ⟨Raised.isAppError_of_app rfl, fun response hresponse => ?_⟩
    cases hresponse
    exact hretried

/-- The attempts still to be made. -/
def attempts (env : Env) (client : BaseApiClient) (errand : Errand) (request : Request) :
    List Nat → Action Response
  | [] => raiseOther (.other "AssertionError", "unreachable")
  | attempt :: rest => do
      let outcome ← transmit env errand request
      match client.judge request.url outcome with
      | .ok response => return response
      | .error e =>
          if attempt = client.policy.maxRetries then Program.raise e
          else do
            sleep (.finite (client.policy.backoff attempt))
            client.attempts env errand request rest

/-- `request(method, path, **kwargs)`. -/
def request (env : Env) (client : BaseApiClient) (errand : Errand) (method path : String)
    (params : Option (List (String × PyValue))) (headers : List (String × String))
    (data : Option (List (String × String))) : Action Response :=
  client.attempts env errand
    { method, url := client.url path, timeoutSeconds := client.policy.timeoutSeconds
      params, headers, data }
    (List.range (client.policy.maxRetries + 1))

section Rule

variable {env : Env} {client : BaseApiClient} {errand : Errand} {req : Request}
  {Q : Response → State → Prop} {E : Raised → State → Prop}

/-- The attempts are a loop that tries again, with an assertion behind it. -/
theorem attempts_eq_retrying (left : List Nat) :
    client.attempts env errand req left =
      Program.retrying (transmit env errand req) (client.judge req.url)
        (fun attempt => sleep (.finite (client.policy.backoff attempt))) client.policy.maxRetries
        (raiseOther (.other "AssertionError", "unreachable")) left := by
  induction left with
  | nil => rfl
  | cons attempt rest ih =>
    unfold attempts Program.retrying
    rw [ih]
    refine congrArg (transmit env errand req >>= ·) (funext fun outcome => ?_)
    cases client.judge req.url outcome with
    | ok response => rfl
    | error e => rfl

/-- The loop with `left` retries to go: what holds before an attempt leads, through the
backoff that follows a failed one, to what holds before the next. -/
theorem triple_attempts {Ready : Nat → State → Prop} (Heard : Nat → Outcome → State → Prop)
    (hsend : ∀ attempt ≤ client.policy.maxRetries,
      Program.Triple (Ready attempt) (transmit env errand req) (Heard attempt) E)
    (hreturn : ∀ attempt outcome response, client.judge req.url outcome = .ok response →
      attempt ≤ client.policy.maxRetries → ∀ s, Heard attempt outcome s → Q response s)
    (hraise : ∀ outcome e, client.judge req.url outcome = .error e →
      ∀ s, Heard client.policy.maxRetries outcome s → E e s)
    (hagain : ∀ outcome e attempt, client.judge req.url outcome = .error e →
      attempt < client.policy.maxRetries →
      Program.Triple (Heard attempt outcome) (sleep (.finite (client.policy.backoff attempt)))
        (fun _ => Ready (attempt + 1)) E)
    (left attempt : Nat) (hlast : attempt + left = client.policy.maxRetries) :
    Program.Triple (Ready attempt)
      (client.attempts env errand req (List.range' attempt (left + 1))) Q E := by
  rw [attempts_eq_retrying]
  exact Program.triple_retrying Heard hsend hreturn hraise hagain left attempt hlast

section Request

variable {method path : String} {params : Option (List (String × PyValue))}
  {headers : List (String × String)} {data : Option (List (String × String))}

/-- What holds may depend on the attempt. -/
theorem triple_request_at (Ready : Nat → State → Prop) (Heard : Nat → Outcome → State → Prop)
    (hsend : ∀ attempt ≤ client.policy.maxRetries, ∀ req, req.url = client.url path →
      req.headers = headers →
        Program.Triple (Ready attempt) (transmit env errand req) (Heard attempt) E)
    (hreturn : ∀ attempt outcome response,
      client.judge (client.url path) outcome = .ok response →
        attempt ≤ client.policy.maxRetries → ∀ s, Heard attempt outcome s → Q response s)
    (hraise : ∀ outcome e, client.judge (client.url path) outcome = .error e →
      ∀ s, Heard client.policy.maxRetries outcome s → E e s)
    (hagain : ∀ outcome e attempt, client.judge (client.url path) outcome = .error e →
      attempt < client.policy.maxRetries →
      Program.Triple (Heard attempt outcome) (sleep (.finite (client.policy.backoff attempt)))
        (fun _ => Ready (attempt + 1)) E) :
    Program.Triple (Ready 0) (client.request env errand method path params headers data) Q E := by
  unfold request
  rw [List.range_eq_range']
  refine triple_attempts Heard (fun attempt hle => ?_) ?_ ?_ ?_ client.policy.maxRetries 0
    (Nat.zero_add _)
  · exact hsend attempt hle _ rfl rfl
  · exact hreturn
  · exact hraise
  · exact hagain

theorem triple_request {Ready : State → Prop} (Heard : Outcome → State → Prop)
    (hsend : ∀ req, req.url = client.url path → req.headers = headers →
      Program.Triple Ready (transmit env errand req) Heard E)
    (hreturn : ∀ outcome response, client.judge (client.url path) outcome = .ok response →
      ∀ s, Heard outcome s → Q response s)
    (hraise : ∀ outcome e, client.judge (client.url path) outcome = .error e →
      ∀ s, Heard outcome s → E e s)
    (hagain : ∀ outcome e attempt, client.judge (client.url path) outcome = .error e →
      attempt < client.policy.maxRetries →
      Program.Triple (Heard outcome) (sleep (.finite (client.policy.backoff attempt)))
        (fun _ => Ready) E) :
    Program.Triple Ready (client.request env errand method path params headers data) Q E :=
  triple_request_at (fun _ => Ready) (fun _ => Heard) (fun _ _ => hsend)
    (fun _ outcome response hjudge _ => hreturn outcome response hjudge) hraise hagain

end Request

end Rule

end BaseApiClient

end Toss
end QuantPlatform
