/-
The log of a process on its standard output.

`configure_logging` may be called again at any time and leaves the root logger with one handler.
Under the JSON formatter a record is a line of its own whatever text it carries, so the records
that were logged at or above the level in force can be read back from the stream, each once.
-/
import QuantPlatform.Core.Logging
import QuantPlatform.Python.JsonText

namespace QuantPlatform
namespace Core

def newline : Char := Char.ofNat 10

/-- The lines of a stream in which each line is ended. -/
def lines (stream : List Char) : List (List Char) := (stream.splitOn newline).dropLast

/-- Texts without a newline, each ended by one. -/
theorem lines_flatMap {texts : List (List Char)} (h : ∀ text ∈ texts, newline ∉ text) :
    lines (texts.flatMap fun text => text ++ [newline]) = texts := by
  unfold lines
  rw [List.splitOn_eq_splitOnP]
  induction texts with
  | nil => rfl
  | cons text rest ih =>
    rw [List.forall_mem_cons] at h
    have hnone : ∀ c ∈ text, (c == newline) = false := by
      intro c hc
      rw [beq_eq_false_iff_ne]
      rintro rfl
      exact h.1 hc
    rw [List.flatMap_cons, List.append_assoc, List.singleton_append,
      List.splitOnP_append_cons_of_forall_mem hnone newline (beq_self_eq_true newline),
      List.dropLast_cons_of_ne_nil (List.splitOnP_ne_nil _ _), ih h.2]

inductive Level
  | debug
  | info
  | warning
  | error
  | critical
  deriving DecidableEq, Repr

namespace Level

def number : Level → Nat
  | debug => 10
  | info => 20
  | warning => 30
  | error => 40
  | critical => 50

def name : Level → String
  | debug => "DEBUG"
  | info => "INFO"
  | warning => "WARNING"
  | error => "ERROR"
  | critical => "CRITICAL"

end Level

/-- The levels that `setLevel` knows by name. -/
def levelNumber : String → Option Nat
  | "CRITICAL" => some 50
  | "FATAL" => some 50
  | "ERROR" => some 40
  | "WARN" => some 30
  | "WARNING" => some 30
  | "INFO" => some 20
  | "DEBUG" => some 10
  | "NOTSET" => some 0
  | _ => none

inductive LogFormat
  | json
  | console
  deriving DecidableEq, Repr

structure RootLogger where
  level : Nat
  /-- The handlers write to the standard output. -/
  handlers : List LogFormat
  deriving DecidableEq, Repr

/-- As `logging` sets it up. -/
def RootLogger.initial : RootLogger := { level := 30, handlers := [] }

/-- The level is set before the handlers are cleared. -/
def configureLogging (root : RootLogger) (level fmt : String) : Except Exn RootLogger :=
  match levelNumber level with
  | none => .error .valueError
  | some n =>
      let root := { root with level := n }
      let root := { root with handlers := [] }
      let handler := if fmt = "json" then .json else .console
      .ok { root with handlers := root.handlers ++ [handler] }

theorem configureLogging_eq (root : RootLogger) {level : String} {n : Nat}
    (h : levelNumber level = some n) :
    configureLogging root level "json" = .ok { level := n, handlers := [.json] } := by
  unfold configureLogging
  rw [h]
  rfl

theorem configureLogging_error (root : RootLogger) {level : String}
    (h : levelNumber level = none) (fmt : String) :
    configureLogging root level fmt = .error .valueError := by
  unfold configureLogging
  rw [h]

/-- A call such as `logger.info(message, extra={"extra_fields": ...})`. -/
structure LogCall where
  level : Level
  created : Instant
  name : String
  message : String
  excInfo : Option Raised := none
  extraFields : List (String × PyValue) := []

def LogCall.record (call : LogCall) : LogRecord where
  created := call.created
  levelname := call.level.name
  name := call.name
  message := call.message
  excInfo := call.excInfo
  extraFields := call.extraFields

/-- How tracebacks and, under `_CONSOLE_FORMAT`, records are printed. -/
structure Printer where
  traceback : Traceback
  console : LogRecord → String

def LogFormat.format (printer : Printer) : LogFormat → LogRecord → String
  | json, record => JsonFormatter.format printer.traceback record
  | console, record => printer.console record

/-- What the handlers write of a call. -/
def RootLogger.emit (printer : Printer) (root : RootLogger) (call : LogCall) : List Char :=
  if root.level ≤ call.level.number then
    root.handlers.flatMap fun handler => (handler.format printer call.record).toList ++ [newline]
  else []

inductive LogStep
  | configure (level fmt : String)
  | log (call : LogCall)

structure LogProcess where
  root : RootLogger
  stdout : List Char

namespace LogProcess

def start : LogProcess := { root := RootLogger.initial, stdout := [] }

/-- A configuration that raises leaves the root logger as it was. -/
def configured (process : LogProcess) : Except Exn RootLogger → LogProcess
  | .ok root => { process with root }
  | .error _ => process

def step (printer : Printer) (process : LogProcess) : LogStep → LogProcess
  | .configure level fmt => process.configured (configureLogging process.root level fmt)
  | .log call => { process with stdout := process.stdout ++ process.root.emit printer call }

def after (printer : Printer) (process : LogProcess) (steps : List LogStep) : LogProcess :=
  steps.foldl (step printer) process

end LogProcess

/-- Nothing is before the first configuration. -/
def admits : Option Nat → Level → Bool
  | none, _ => false
  | some n, level => n ≤ level.number

/-- The calls at or above the level in force. -/
def recorded : Option Nat → List LogStep → List LogCall
  | _, [] => []
  | threshold, .configure level _ :: rest => recorded (levelNumber level <|> threshold) rest
  | threshold, .log call :: rest =>
      if admits threshold call.level then call :: recorded threshold rest
      else recorded threshold rest

theorem mem_recorded {call : LogCall} {threshold : Option Nat} {steps : List LogStep}
    (h : call ∈ recorded threshold steps) : LogStep.log call ∈ steps := by
  induction steps generalizing threshold with
  | nil => cases h
  | cons step rest ih =>
    cases step with
    | configure level fmt => exact List.mem_cons_of_mem _ (ih h)
    | log first =>
      rw [recorded] at h
      split_ifs at h with hadmits
      · rcases List.mem_cons.mp h with rfl | h
        · exact List.mem_cons_self
        · exact List.mem_cons_of_mem _ (ih h)
      · exact List.mem_cons_of_mem _ (ih h)

/-- The one dict that a record is written as. -/
def JsonFormatter.payload (traceback : Traceback) (record : LogRecord) :
    List (String × PyValue) :=
  let payload := [("timestamp", PyValue.str record.created.isoformat),
    ("level", .str record.levelname), ("logger", .str record.name),
    ("message", .str record.message)]
  let payload :=
    match record.excInfo with
    | some e => Dict.set payload "exception" (.str (traceback.formatException e))
    | none => payload
  Dict.update payload record.extraFields

/-! ## Runs -/

/-- The formatter asked for is the default. -/
def LogStep.AsksJson : LogStep → Prop
  | configure _ fmt => fmt = "json"
  | log _ => True

/-- The process writes what passes the threshold. -/
def LogProcess.Follows (process : LogProcess) : Option Nat → Prop
  | none => process.root.handlers = []
  | some n => process.root = { level := n, handlers := [.json] }

namespace LogProcess

variable {printer : Printer} {process : LogProcess} {threshold : Option Nat}

def line (printer : Printer) (call : LogCall) : List Char :=
  (JsonFormatter.format printer.traceback call.record).toList ++ [newline]

theorem Follows.configure (h : process.Follows threshold) (level : String) :
    (step printer process (.configure level "json")).Follows (levelNumber level <|> threshold) ∧
      (step printer process (.configure level "json")).stdout = process.stdout := by
  have hstep : step printer process (.configure level "json") =
      process.configured (configureLogging process.root level "json") := rfl
  rw [hstep]
  cases hlevel : levelNumber level with
  | none =>
    rw [configureLogging_error process.root hlevel]
    exact ⟨h, rfl⟩
  | some n =>
    rw [configureLogging_eq process.root hlevel]
    exact ⟨rfl, rfl⟩

theorem Follows.emit (h : process.Follows threshold) (call : LogCall) :
    process.root.emit printer call =
      if admits threshold call.level then line printer call else [] := by
  cases threshold with
  | none =>
    have hnone : process.root.handlers = [] := h
    unfold RootLogger.emit
    rw [hnone]
    exact ite_self []
  | some n =>
    have hroot : process.root = { level := n, handlers := [.json] } := h
    rw [hroot]
    unfold RootLogger.emit
    simp only [admits, decide_eq_true_eq, List.flatMap_singleton]
    rfl

theorem stdout_after (h : process.Follows threshold) {steps : List LogStep}
    (hsteps : ∀ step ∈ steps, step.AsksJson) :
    (process.after printer steps).stdout =
      process.stdout ++ (recorded threshold steps).flatMap (line printer) := by
  induction steps generalizing process threshold with
  | nil => exact (List.append_nil _).symm
  | cons first rest ih =>
    rw [List.forall_mem_cons] at hsteps
    cases first with
    | configure level fmt =>
      have hfmt : fmt = "json" := hsteps.1
      rw [hfmt]
      obtain ⟨hfollows, hstdout⟩ := @Follows.configure printer process threshold h level
      refine (ih hfollows hsteps.2).trans ?_
      rw [hstdout]
      rfl
    | log call =>
      have hfollows : (step printer process (.log call)).Follows threshold := by
        cases threshold with
        | none => exact h
        | some n => exact h
      refine (ih hfollows hsteps.2).trans ?_
      show process.stdout ++ process.root.emit printer call ++ _ = _
      rw [h.emit, recorded, List.append_assoc]
      split_ifs with hadmits
      · rw [List.flatMap_cons]
      · rfl

end LogProcess

/-! ## Reading back -/

section Dict

variable {P : PyValue → Prop} {entries extra : List (String × PyValue)}

theorem forall_set (h : ∀ entry ∈ entries, P entry.2) (k : String) {x : PyValue} (hx : P x) :
    ∀ entry ∈ Dict.set entries k x, P entry.2 := by
  induction entries with
  | nil => exact List.forall_mem_singleton.mpr hx
  | cons first rest ih =>
    rw [List.forall_mem_cons] at h
    rw [Dict.set]
    split_ifs with hfound
    · exact List.forall_mem_cons.mpr ⟨hx, h.2⟩
    · exact List.forall_mem_cons.mpr ⟨h.1, ih h.2⟩

theorem forall_update (h : ∀ entry ∈ entries, P entry.2) (hextra : ∀ entry ∈ extra, P entry.2) :
    ∀ entry ∈ Dict.update entries extra, P entry.2 := by
  unfold Dict.update
  induction extra generalizing entries with
  | nil => exact h
  | cons first rest ih =>
    rw [List.forall_mem_cons] at hextra
    exact ih (forall_set h first.1 hextra.1) hextra.2

end Dict

theorem floatsPrinted_payload {traceback : Traceback} {record : LogRecord}
    (h : ∀ field ∈ record.extraFields, Json.FloatsPrinted field.2) :
    Json.FloatsPrinted (.dict (JsonFormatter.payload traceback record)) := by
  rw [Json.FloatsPrinted, Json.floatsPrintedEntries_iff]
  unfold JsonFormatter.payload
  refine forall_update ?_ h
  cases record.excInfo with
  | none => simp [Json.FloatsPrinted]
  | some e => exact forall_set (by simp [Json.FloatsPrinted]) _ trivial

theorem newline_not_mem {cs : List Char} (h : Json.Doc.Printable cs) : newline ∉ cs :=
  fun hmem => absurd (h newline hmem) (by decide)

/-- Whatever texts are logged and however often logging is configured, under the JSON formatter
each line of the stream is one document, and they say in order what the calls at or above the
level in force were to record. -/
theorem log_lines_read_back (printer : Printer) {steps : List LogStep}
    (hjson : ∀ step ∈ steps, step.AsksJson)
    (hfloats : ∀ call, LogStep.log call ∈ steps →
      ∀ field ∈ call.extraFields, Json.FloatsPrinted field.2) :
    (lines (LogProcess.start.after printer steps).stdout).map
        (fun line => Json.Doc.read (String.ofList line)) =
      (recorded none steps).map fun call =>
        some (Json.view (.dict (JsonFormatter.payload printer.traceback call.record))) := by
  have hpayload : ∀ call ∈ recorded none steps, Json.FloatsPrinted
      (.dict (JsonFormatter.payload printer.traceback call.record)) := fun call hcall =>
    floatsPrinted_payload (hfloats call (mem_recorded hcall))
  have hstdout : (LogProcess.start.after printer steps).stdout =
      ((recorded none steps).map fun call =>
        (JsonFormatter.format printer.traceback call.record).toList).flatMap
          fun text => text ++ [newline] := by
    have hstart : LogProcess.start.Follows none := rfl
    rw [LogProcess.stdout_after hstart hjson, List.flatMap_map]
    rfl
  rw [hstdout, lines_flatMap, List.map_map]
  · refine List.map_congr_left fun call hcall => ?_
    rw [Function.comp_apply, String.ofList_toList]
    exact Json.read_dumps (hpayload call hcall)
  · intro text htext
    obtain ⟨call, hcall, rfl⟩ := List.mem_map.mp htext
    exact newline_not_mem (Json.printable_dumps (hpayload call hcall))

def plainPrinter : Printer where
  traceback := { frames := fun _ => "", qualname := fun _ => "Error" }
  console := LogRecord.message

/-- A message with a line of its own, before and after logging is configured. -/
def forgedSteps : List LogStep :=
  let call : LogCall :=
    { level := .info, created := 0, name := "app", message := "one\ntwo",
      extraFields := [("attempt", .int 2)] }
  [.log call, .configure "INFO" "json", .log call, .configure "LOUD" "json", .log call]

theorem forged_line_read_back :
    (recorded none forgedSteps).length = 2 ∧
      (lines (LogProcess.start.after plainPrinter forgedSteps).stdout).map
          (fun line => Json.Doc.read (String.ofList line)) =
        (recorded none forgedSteps).map fun call =>
          some (Json.view (.dict (JsonFormatter.payload plainPrinter.traceback call.record))) := by
  refine ⟨rfl, log_lines_read_back plainPrinter ?_ ?_⟩
  · simp [forgedSteps, LogStep.AsksJson]
  · intro call hcall field hfield
    simp only [forgedSteps, List.mem_cons, LogStep.log.injEq, List.not_mem_nil, or_false,
      reduceCtorEq, false_or, or_self] at hcall
    rw [hcall, List.mem_singleton] at hfield
    rw [hfield]
    trivial

end Core
end QuantPlatform
