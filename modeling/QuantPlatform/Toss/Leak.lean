/-
What a log shows of a token response that was refused.

The exception raised over such a response says nothing of its body, but it is
raised from pydantic's own, whose text quotes the input.  A log record prints the
whole chain, so two refused bodies are logged alike exactly when pydantic's texts
for them are alike, or when the record's extra fields hide the traceback.
-/
import QuantPlatform.Core.Logging
import QuantPlatform.Toss.Client

namespace QuantPlatform
namespace Toss

open QuantPlatform.Core Effects

/-- The response that the last event is the answer with, if it is one. -/
def State.lastAnswer (s : State) : Option Response := s.log.getLast?.bind Event.answering

@[simp] theorem State.lastAnswer_logged (s : State) (e : Event) :
    (s.logged e).lastAnswer = e.answering := by
  unfold lastAnswer
  simp

/-- `get_valid_token()` raises `e`, having been answered last with a 2xx response whose
body pydantic refuses with `exc`. -/
structure Refused (env : Env) (oauth : TossOAuthClient) (s : State) (e : Raised)
    (exc : ValidationError) : Prop where
  raised : (oauth.getValidToken env s).1 = .error e
  answered : ∃ response, (oauth.getValidToken env s).2.lastAnswer = some response ∧
    isSuccess response ∧ response.statusCode ∉ oauth.http.policy.retryStatusCodes ∧
    env.tokenDto response.content = .error exc

/-- If the last event is a 2xx answer, of a status the transport does not retry, then
`e` is what its parsing raises. -/
def Explained (env : Env) (oauth : TossOAuthClient) (e : Raised) (s : State) : Prop :=
  ∀ response, s.lastAnswer = some response → isSuccess response →
    response.statusCode ∉ oauth.http.policy.retryStatusCodes →
    parseToken env response.content = .error e

section Programs

variable {env : Env} {oauth : TossOAuthClient}

theorem explained_logged {s : State} {event : Event} {e : Raised} (h : event.answering = none) :
    Explained env oauth e (s.logged event) := by
  intro response hlast
  rw [State.lastAnswer_logged, h] at hlast
  cases hlast

theorem sleep_explained (seconds : PyFloat) {P : State → Prop} :
    Program.Triple P (sleep seconds) (fun _ _ => True) (Explained env oauth) :=
  triple_sleep (fun _ _ _ => trivial) fun _ _ _ _ => explained_logged rfl

/-- A clock read and a computation with the reading. -/
theorem dated_explained {α : Type} {event : Event} {f : Instant → Except Exn Instant}
    {k : Instant → Instant → Action α} (hevent : event.answering = none)
    (hk : ∀ now t, Program.Triple (fun _ => True) (k now t) (fun _ _ => True)
      (Explained env oauth)) {P : State → Prop} :
    Program.Triple P
      (do
        let now ← readClock env event
        let t ← dated (f now)
        k now t)
      (fun _ _ => True) (Explained env oauth) := by
  refine Program.triple_bind (fun _ s => ∃ s₀ : State, s = s₀.logged event) ?_ fun now => ?_
  · exact triple_readClock fun s _ => ⟨s, rfl⟩
  refine Program.triple_bind (fun _ _ => True) ?_ fun t => hk now t
  refine triple_dated (fun _ _ _ _ => trivial) fun _ _ s hs => ?_
  obtain ⟨s₀, rfl⟩ := hs
  exact explained_logged hevent

theorem post_explained :
    Program.Triple (fun _ => True) (oauth.post env)
      (fun response s => s.lastAnswer = some response) (Explained env oauth) := by
  refine BaseApiClient.triple_request (fun outcome s => ∀ response,
    s.lastAnswer = some response ↔ outcome = .response response) ?_ ?_ ?_ ?_
  · intro request _ _
    refine triple_transmit (fun _ s _ response => ?_) fun _ _ _ _ => explained_logged rfl
    rw [State.lastAnswer_logged]
    cases env.transport s.log.length with
    | timeout text => simp [Event.answering]
    | httpError text => simp [Event.answering]
    | response response' => simp [Event.answering]
  · exact fun _ response hjudge s hs =>
      (hs response).mpr (BaseApiClient.judge_eq_ok_iff.mp hjudge).1
  · intro outcome e hjudge s hs response hlast _ hkept
    exact absurd ((BaseApiClient.judge_error hjudge).2 response ((hs response).mp hlast)) hkept
  · exact fun _ _ _ _ _ => sleep_explained _

theorem fetchToken_explained :
    Program.Triple (fun _ => True) (oauth.fetchToken env) (fun _ _ => True)
      (Explained env oauth) := by
  refine Program.triple_bind (fun _ _ => True) ?_ fun _ => ?_
  · exact oauth.throttle.wait_keeps .oauth .auth (fun _ _ => trivial) (fun _ _ => trivial)
      (fun _ _ _ => trivial) fun _ => sleep_explained _
  refine Program.triple_bind (fun response s => s.lastAnswer = some response) ?_ fun response => ?_
  · exact StatusRetry.triple_sendWithStatusRetry _ post_explained (fun _ _ hs => hs)
      fun _ _ _ _ => sleep_explained _
  refine Program.triple_bind (fun _ s => s.lastAnswer = some response) ?_ fun _ => ?_
  · refine Program.triple_lift (fun _ _ _ hs => hs) ?_
    intro e herror s hs response' hlast hsuccess _
    obtain rfl : response = response' := Option.some.inj (hs.symm.trans hlast)
    rw [raiseForStatus_eq_ok_iff.mpr hsuccess] at herror
    cases herror
  refine Program.triple_bind (fun _ _ => True) ?_ fun parsed => ?_
  · refine Program.triple_lift (fun _ _ _ _ => trivial) ?_
    intro e herror s hs response' hlast _ _
    obtain rfl : response = response' := Option.some.inj (hs.symm.trans hlast)
    exact herror
  exact dated_explained rfl fun now t => Program.triple_pure fun _ _ => trivial

theorem getValidToken_explained :
    Program.Triple (fun _ => True) (oauth.getValidToken env) (fun _ _ => True)
      (Explained env oauth) := by
  refine Program.triple_bind (fun _ _ => True) ?_ fun _ => Program.triple_pure fun _ _ => trivial
  refine TossOAuthClient.triple_validToken fetchToken_explained (fun _ _ _ => trivial)
    fun token => ?_
  refine Program.Triple.conseq (dated_explained rfl ?_) (fun _ hs => hs)
    (fun _ _ _ => ⟨trivial, fun _ => trivial⟩) fun _ _ hs => hs
  exact fun now t => Program.triple_pure fun _ _ => trivial

end Programs

/-- A refused body is reported by its parse failure. -/
theorem Refused.eq_parseFailure {env : Env} {oauth : TossOAuthClient} {s : State} {e : Raised}
    {exc : ValidationError} (h : Refused env oauth s e exc) : e = parseFailure exc := by
  obtain ⟨response, hlast, hsuccess, hkept, hrefused⟩ := h.answered
  have hrun : oauth.getValidToken env s = (.error e, (oauth.getValidToken env s).2) :=
    Prod.ext h.raised rfl
  have hparse := getValidToken_explained.error trivial hrun response hlast hsuccess hkept
  rw [parseToken_of_error hrefused] at hparse
  exact (Except.error.inj hparse).symm

theorem refused_parseFailure {env : Env} {oauth : TossOAuthClient} {s : State}
    {exc : ValidationError} (hraised : (oauth.getValidToken env s).1.toOption = none)
    (hanswered : ∃ response, (oauth.getValidToken env s).2.lastAnswer = some response ∧
      isSuccess response ∧ response.statusCode ∉ oauth.http.policy.retryStatusCodes ∧
      env.tokenDto response.content = .error exc) :
    Refused env oauth s (parseFailure exc) exc := by
  cases hrun : (oauth.getValidToken env s).1 with
  | ok value =>
    rw [hrun] at hraised
    cases hraised
  | error e =>
    have h : Refused env oauth s e exc := ⟨hrun, hanswered⟩
    exact h.eq_parseFailure ▸ h

/-! ## What is logged of it -/

/-- Two refused bodies are logged alike exactly when pydantic's texts for them are the
same, or the record's extra fields replace the traceback. -/
theorem refused_logged_alike_iff {env env' : Env} {oauth oauth' : TossOAuthClient} {s s' : State}
    {e e' : Raised} {exc exc' : ValidationError} (h : Refused env oauth s e exc)
    (h' : Refused env' oauth' s' e' exc') (traceback : Traceback) (record : LogRecord) :
    JsonFormatter.format traceback (record.withException e) =
        JsonFormatter.format traceback (record.withException e') ↔
      exc.text = exc'.text ∨ "exception" ∈ record.extraFields.map Prod.fst := by
  rw [format_withException_inj, h.eq_parseFailure, h'.eq_parseFailure]
  unfold parseFailure
  rw [Traceback.formatException_of_cause_inj]

/-- A token response without its lifetime. -/
def incompleteBody (token : String) : List UInt8 :=
  bytes ("\x7b\"access_token\": \"" ++ token ++ "\"\x7d")

/-- pydantic's complaint about it, with its links left out. -/
def missingLifetime (token : String) : ValidationError where
  reasons := [("expires_in", "missing")]
  text := "1 validation error for ProvisionalTokenResponseDto\nexpires_in\n" ++
    "  Field required [type=missing, input_value=\x7b'access_token': '" ++ token ++
    "'\x7d, input_type=dict]"

/-- Surroundings whose pydantic quotes the incomplete token responses. -/
def quotingEnv : Env :=
  { sampleEnv (fun _ => 0) (fun _ => 0) 3600 fun _ => answered 200 [] emptyBody with
    tokenDto := fun body =>
      if body = incompleteBody "tok-1" then .error (missingLifetime "tok-1")
      else .error (missingLifetime "tok-2") }

def incompleteEnv (token : String) : Env :=
  { quotingEnv with transport := fun _ => answered 200 [] (incompleteBody token) }

theorem incompleteEnv_refused {token : String} (htoken : token = "tok-1" ∨ token = "tok-2") :
    Refused (incompleteEnv token) sampleClient.oauth State.fresh
      (parseFailure (missingLifetime token)) (missingLifetime token) := by
  apply refused_parseFailure
  · rcases htoken with rfl | rfl
    · decide +kernel
    · decide +kernel
  · refine ⟨{ statusCode := 200, headers := [], content := incompleteBody token }, ?_, ?_, ?_, ?_⟩
    · rcases htoken with rfl | rfl
      · decide +kernel
      · decide +kernel
    · show 200 ≤ 200 ∧ 200 < 300
      decide
    · exact List.not_mem_nil
    · rcases htoken with rfl | rfl
      · decide +kernel
      · decide +kernel

/-- An error logged at the epoch, with no frames shown. -/
def plainTraceback : Traceback where
  frames _ := ""
  qualname
    | .other "pydantic.ValidationError" => "pydantic_core._pydantic_core.ValidationError"
    | _ => "ValueError"

def plainRecord : LogRecord where
  created := 0
  levelname := "ERROR"
  name := "app.toss"
  message := "token fetch failed"

theorem incomplete_bodies_logged_alike_iff :
    JsonFormatter.format plainTraceback
          (plainRecord.withException (parseFailure (missingLifetime "tok-1"))) =
        JsonFormatter.format plainTraceback
          (plainRecord.withException (parseFailure (missingLifetime "tok-2"))) ↔
      (missingLifetime "tok-1").text = (missingLifetime "tok-2").text ∨
        "exception" ∈ plainRecord.extraFields.map Prod.fst :=
  refused_logged_alike_iff (incompleteEnv_refused (Or.inl rfl)) (incompleteEnv_refused (Or.inr rfl))
    plainTraceback plainRecord

/-- The token of a response that is only incomplete is in the log. -/
theorem incomplete_token_logged :
    ¬ ∀ (env : Env) (transport transport' : Nat → Outcome) (oauth : TossOAuthClient) (s : State)
        (e e' : Raised) (exc exc' : ValidationError),
        Refused { env with transport := transport } oauth s e exc →
        Refused { env with transport := transport' } oauth s e' exc' →
        exc.reasons = exc'.reasons →
        ∀ (traceback : Traceback) (record : LogRecord),
          JsonFormatter.format traceback (record.withException e) =
            JsonFormatter.format traceback (record.withException e') := by
  intro halike
  have hsame := halike quotingEnv _ _ sampleClient.oauth State.fresh _ _ _ _
    (incompleteEnv_refused (Or.inl rfl)) (incompleteEnv_refused (Or.inr rfl)) rfl plainTraceback
    plainRecord
  rcases (format_withException_inj plainTraceback plainRecord).mp hsame with htrace | hkey
  · have htext := plainTraceback.formatException_of_cause_inj.mp htrace
    exact absurd htext (by decide +kernel)
  · cases hkey

end Toss
end QuantPlatform
