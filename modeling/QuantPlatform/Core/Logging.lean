import QuantPlatform.Core.Exceptions
import QuantPlatform.Python.Json

namespace QuantPlatform
namespace Core

/-- `__name__`. -/
def AppClass.name : AppClass → String
  | appError => "AppError"
  | configError => "ConfigError"
  | externalAPIError => "ExternalAPIError"
  | externalAPITimeoutError => "ExternalAPITimeoutError"
  | externalAPIRetryExhaustedError => "ExternalAPIRetryExhaustedError"
  | externalAPIAuthError => "ExternalAPIAuthError"
  | dataValidationError => "DataValidationError"
  | orderError => "OrderError"
  | riskViolationError => "RiskViolationError"
  | brokerError => "BrokerError"
  | backtestError => "BacktestError"
  | researchError => "ResearchError"
  | strategyVersionExistsError => "StrategyVersionExistsError"
  | strategyNotFoundError => "StrategyNotFoundError"
  | tossApiError => "TossApiError"
  | tossAuthenticationError => "TossAuthenticationError"
  | tossIpRestrictedError => "TossIpRestrictedError"
  | tossRateLimitError => "TossRateLimitError"
  | tossServerError => "TossServerError"

/-- What a printed traceback shows beside the exceptions themselves. -/
structure Traceback where
  /-- The frames that the exception at a depth of the chain was raised through. -/
  frames : Nat → String
  /-- The module and name of a class that is not the application's. -/
  qualname : Exn → String

namespace Traceback

variable (traceback : Traceback)

def className : ExceptionClass → String
  | .app cls => "app.core.exceptions." ++ cls.name
  | .other exn => traceback.qualname exn

/-- The class of an exception and its text, if it has one. -/
def finalLine (cls : ExceptionClass) (text : String) : String :=
  traceback.className cls ++ if text = "" then "" else ": " ++ text

/-- One exception, after what is printed of its cause. -/
def oneException (depth : Nat) (cls : ExceptionClass) (text : String) : String :=
  "Traceback (most recent call last):\n" ++ traceback.frames depth ++ traceback.finalLine cls text

/-- `traceback.print_exception`, at a depth of the chain. -/
def printed (depth : Nat) : Raised → String
  | { cls, text, cause := none, .. } => traceback.oneException depth cls text ++ "\n"
  | { cls, text, cause := some cause, .. } =>
      printed (depth + 1) cause ++
        "\nThe above exception was the direct cause of the following exception:\n\n" ++
        traceback.oneException depth cls text ++ "\n"

/-- The text without a newline at its end. -/
def stripNewline (text : String) : String :=
  if text.toList.getLast? = some (Char.ofNat 10) then String.ofList text.toList.dropLast else text

/-- `formatException`. -/
def formatException (e : Raised) : String := stripNewline (traceback.printed 0 e)

theorem stripNewline_append (text : String) : stripNewline (text ++ "\n") = text := by
  have hlast : (text ++ "\n").toList = text.toList ++ [Char.ofNat 10] := String.toList_append
  unfold stripNewline
  rw [hlast, if_pos (by simp), List.dropLast_concat, String.ofList_toList]

theorem finalLine_inj {cls : ExceptionClass} {text text' : String} :
    traceback.finalLine cls text = traceback.finalLine cls text' ↔ text = text' := by
  have hnonempty : ∀ t : String, ": " ++ t ≠ "" := by
    intro t h
    have hlength := congrArg String.length h
    rw [String.length_append] at hlength
    exact absurd hlength (by show ¬ 2 + t.length = 0; omega)
  unfold finalLine
  rw [String.append_right_inj]
  split_ifs with h h'
  · rw [h, h']
  · exact iff_of_false (Ne.symm (hnonempty text')) fun heq => h' (heq ▸ h)
  · next h' => exact iff_of_false (hnonempty text) fun heq => h (heq.trans h')
  · rw [String.append_right_inj]

/-- An exception raised from one that has no cause shows the text of that one. -/
theorem formatException_of_cause_inj {cls cls' : ExceptionClass} {text t t' : String} :
    traceback.formatException { cls, text, cause := some { cls := cls', text := t } } =
        traceback.formatException { cls, text, cause := some { cls := cls', text := t' } } ↔
      t = t' := by
  unfold formatException
  simp only [printed]
  rw [stripNewline_append, stripNewline_append, String.append_left_inj, String.append_left_inj,
    String.append_left_inj]
  unfold oneException
  rw [String.append_right_inj, finalLine_inj]

end Traceback

structure LogRecord where
  created : Instant
  levelname : String
  name : String
  /-- `getMessage()`. -/
  message : String
  excInfo : Option Raised := none
  extraFields : List (String × PyValue) := []

/-- `JsonFormatter().format(record)`. -/
def JsonFormatter.format (traceback : Traceback) (record : LogRecord) : String :=
  let payload := [("timestamp", PyValue.str record.created.isoformat),
    ("level", .str record.levelname), ("logger", .str record.name),
    ("message", .str record.message)]
  let payload :=
    match record.excInfo with
    | some e => Dict.set payload "exception" (.str (traceback.formatException e))
    | none => payload
  Json.dumps (.dict (Dict.update payload record.extraFields))

/-- The record, logged with an exception. -/
def LogRecord.withException (record : LogRecord) (e : Raised) : LogRecord :=
  { record with excInfo := some e }

/-- A record shows all of the printed traceback, unless its extra fields replace it. -/
theorem format_withException_inj (traceback : Traceback) (record : LogRecord) {e e' : Raised} :
    JsonFormatter.format traceback (record.withException e) =
        JsonFormatter.format traceback (record.withException e') ↔
      traceback.formatException e = traceback.formatException e' ∨
        "exception" ∈ record.extraFields.map Prod.fst := by
  have hformat : ∀ e, JsonFormatter.format traceback (record.withException e) =
      Json.dumps (.dict (Dict.update ([("timestamp", PyValue.str record.created.isoformat),
        ("level", .str record.levelname), ("logger", .str record.name),
        ("message", .str record.message)] ++
        ("exception", .str (traceback.formatException e)) :: []) record.extraFields)) :=
    fun e => rfl
  rw [hformat e, hformat e']
  by_cases hkey : "exception" ∈ record.extraFields.map Prod.fst
  · refine iff_of_true ?_ (Or.inr hkey)
    rw [Dict.update_of_mem hkey _ [] (by simp)]
  · obtain ⟨pre, post, hupdate⟩ := Dict.update_of_not_mem hkey _ []
    rw [hupdate, hupdate, Json.dumps_dict_inj, or_iff_left hkey]

end Core
end QuantPlatform
