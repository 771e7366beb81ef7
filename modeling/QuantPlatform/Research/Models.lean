/-
`StrategySpec`: the record of one version of a strategy, and its JSON.

A spec is what pydantic's validation lets through, so it carries the proof that its
validators accept it.  Written as JSON it is an object of its fields; read back it is
validated again.  A float that JSON has no number for is written as `null`, and an
offset from UTC is written in hours and minutes.

How pydantic writes a datetime, a date and a float, and reads the first two, is a
parameter.
-/
import QuantPlatform.Core.Exceptions
import QuantPlatform.Python.Datetime
import QuantPlatform.Python.Validation

namespace QuantPlatform
namespace Research

open Validation

inductive StrategyStatus
  | research
  | pineValidated
  | pythonValidated
  | paper
  | approved
  | retired
  deriving DecidableEq, Repr

inductive StrategySource
  | tradingviewPine
  | pythonBacktest
  | external
  | manual
  deriving DecidableEq, Repr

instance : StrEnum StrategyStatus where
  members := [.research, .pineValidated, .pythonValidated, .paper, .approved, .retired]
  value
    | .research => "research"
    | .pineValidated => "pine_validated"
    | .pythonValidated => "python_validated"
    | .paper => "paper"
    | .approved => "approved"
    | .retired => "retired"
  complete a := by cases a <;> decide
  distinct := by decide

instance : StrEnum StrategySource where
  members := [.tradingviewPine, .pythonBacktest, .external, .manual]
  value
    | .tradingviewPine => "tradingview_pine"
    | .pythonBacktest => "python_backtest"
    | .external => "external"
    | .manual => "manual"
  complete a := by cases a <;> decide
  distinct := by decide

/-- `_STATUSES_REQUIRING_PINE_VALIDATION`. -/
def statusesRequiringPineValidation : List StrategyStatus :=
  [.pineValidated, .pythonValidated, .paper, .approved]

/-- `Field(ge=0)`: a float below zero is refused, and a NaN is not below it. -/
def notNegative : PyFloat → Prop
  | .finite value => 0 ≤ value
  | .infinity negative => negative = false
  | .nan => True

instance : DecidablePred notNegative
  | .finite value => inferInstanceAs (Decidable (0 ≤ value))
  | .infinity negative => inferInstanceAs (Decidable (negative = false))
  | .nan => inferInstanceAs (Decidable True)

/-- Dates are counted in days from the epoch. -/
structure PineFields where
  testPeriodStart : Int
  testPeriodEnd : Int
  symbols : List String
  timeframe : String
  feesPct : PyFloat
  slippagePct : PyFloat
  notes : Option String := none
  deriving DecidableEq

def PineFields.Valid (fields : PineFields) : Prop :=
  notNegative fields.feesPct ∧ notNegative fields.slippagePct ∧ fields.symbols ≠ [] ∧
    fields.testPeriodStart ≤ fields.testPeriodEnd

instance (fields : PineFields) : Decidable fields.Valid :=
  inferInstanceAs (Decidable (_ ∧ _))

structure PineValidationAssumptions extends PineFields where
  valid : toPineFields.Valid
  deriving DecidableEq

structure SpecFields where
  strategyId : String
  name : String
  version : String
  source : StrategySource
  hypothesis : String
  universeList : List String
  timeframe : String
  entryRules : List String
  exitRules : List String
  riskAssumptions : List String
  createdAt : WrittenDatetime
  status : StrategyStatus := .research
  pineValidation : Option PineValidationAssumptions := none
  deriving DecidableEq

/-- `not value.strip()`. -/
def isBlank (value : String) : Bool := value.toList.all isSpace

def SpecFields.Valid (fields : SpecFields) : Prop :=
  (∀ value ∈ [fields.strategyId, fields.name, fields.version, fields.hypothesis,
    fields.timeframe], isBlank value = false) ∧
  (∀ value ∈ [fields.universeList, fields.entryRules, fields.exitRules, fields.riskAssumptions],
    value ≠ []) ∧
  (fields.status ∈ statusesRequiringPineValidation → fields.pineValidation ≠ none)

instance (fields : SpecFields) : Decidable fields.Valid :=
  inferInstanceAs (Decidable (_ ∧ _ ∧ (_ → _)))

structure StrategySpec extends SpecFields where
  valid : toSpecFields.Valid
  deriving DecidableEq

/-- The forms of pydantic's own, and the current time. -/
structure Pydantic where
  datetimeText : WrittenDatetime → String
  parseDatetime : PyValue → Option WrittenDatetime
  dateText : Int → String
  parseDate : PyValue → Option Int
  floatText : ℚ → String
  now : WrittenDatetime
  errorText : PyValue → String

section Dump

variable (pydantic : Pydantic)

/-- A float that is no number is written as `null`. -/
def dumpFloat : PyFloat → PyValue
  | .finite value => .float (pydantic.floatText value)
  | _ => .none

def PineValidationAssumptions.entries (assumptions : PineValidationAssumptions) :
    List (String × PyValue) :=
  [("test_period_start", .str (pydantic.dateText assumptions.testPeriodStart)),
    ("test_period_end", .str (pydantic.dateText assumptions.testPeriodEnd)),
    ("symbols", dumpTexts assumptions.symbols),
    ("timeframe", .str assumptions.timeframe),
    ("fees_pct", dumpFloat pydantic assumptions.feesPct),
    ("slippage_pct", dumpFloat pydantic assumptions.slippagePct),
    ("notes", dumpOptional .str assumptions.notes)]

def PineValidationAssumptions.modelDump (assumptions : PineValidationAssumptions) : PyValue :=
  .dict (assumptions.entries pydantic)

def StrategySpec.entries (spec : StrategySpec) : List (String × PyValue) :=
  [("strategy_id", .str spec.strategyId),
    ("name", .str spec.name),
    ("version", .str spec.version),
    ("source", .str (StrEnum.value spec.source)),
    ("hypothesis", .str spec.hypothesis),
    ("universe", dumpTexts spec.universeList),
    ("timeframe", .str spec.timeframe),
    ("entry_rules", dumpTexts spec.entryRules),
    ("exit_rules", dumpTexts spec.exitRules),
    ("risk_assumptions", dumpTexts spec.riskAssumptions),
    ("created_at", .str (pydantic.datetimeText spec.createdAt)),
    ("status", .str (StrEnum.value spec.status)),
    ("pine_validation",
      dumpOptional (PineValidationAssumptions.modelDump pydantic) spec.pineValidation)]

/-- `model_dump_json`. -/
def StrategySpec.modelDump (spec : StrategySpec) : PyValue := .dict (spec.entries pydantic)

end Dump

section Validate

variable (pydantic : Pydantic)

def PineFields.keys : List String :=
  ["test_period_start", "test_period_end", "symbols", "timeframe", "fees_pct", "slippage_pct",
    "notes"]

/-- The fields of the JSON object, before the validators of the model. -/
def PineFields.read (entries : List (String × PyValue)) : Option PineFields := do
  if onlyKeys keys entries then
    let testPeriodStart ← field entries "test_period_start" pydantic.parseDate
    let testPeriodEnd ← field entries "test_period_end" pydantic.parseDate
    let symbols ← field entries "symbols" readTexts
    let timeframe ← field entries "timeframe" readText
    let feesPct ← field entries "fees_pct" readFloat
    let slippagePct ← field entries "slippage_pct" readFloat
    let notes ← fieldOr none entries "notes" (readOptional readText)
    return { testPeriodStart, testPeriodEnd, symbols, timeframe, feesPct, slippagePct, notes }
  else none

def PineFields.validated (fields : PineFields) : Option PineValidationAssumptions :=
  if h : fields.Valid then some { fields with valid := h } else none

def PineValidationAssumptions.modelValidate : PyValue → Option PineValidationAssumptions
  | .dict entries => (PineFields.read pydantic entries).bind PineFields.validated
  | _ => none

def SpecFields.keys : List String :=
  ["strategy_id", "name", "version", "source", "hypothesis", "universe", "timeframe",
    "entry_rules", "exit_rules", "risk_assumptions", "created_at", "status", "pine_validation"]

def SpecFields.read (entries : List (String × PyValue)) : Option SpecFields := do
  if onlyKeys keys entries then
    let strategyId ← field entries "strategy_id" readText
    let name ← field entries "name" readText
    let version ← field entries "version" readText
    let source ← field entries "source" (readMember StrategySource)
    let hypothesis ← field entries "hypothesis" readText
    let universeList ← field entries "universe" readTexts
    let timeframe ← field entries "timeframe" readText
    let entryRules ← field entries "entry_rules" readTexts
    let exitRules ← field entries "exit_rules" readTexts
    let riskAssumptions ← field entries "risk_assumptions" readTexts
    let createdAt ← fieldOr pydantic.now entries "created_at" pydantic.parseDatetime
    let status ← fieldOr .research entries "status" (readMember StrategyStatus)
    let pineValidation ← fieldOr none entries "pine_validation"
      (readOptional (PineValidationAssumptions.modelValidate pydantic))
    return { strategyId, name, version, source, hypothesis, universeList, timeframe, entryRules
             exitRules, riskAssumptions, createdAt, status, pineValidation }
  else none

def SpecFields.validated (fields : SpecFields) : Option StrategySpec :=
  if h : fields.Valid then some { fields with valid := h } else none

/-- `model_validate_json`, or nothing when it raises `ValidationError`. -/
def StrategySpec.modelValidate : PyValue → Option StrategySpec
  | .dict entries => (SpecFields.read pydantic entries).bind SpecFields.validated
  | _ => none

end Validate

/-- The offset from UTC is written in hours and minutes. -/
def WholeMinutes (written : WrittenDatetime) : Prop :=
  ∀ offset, written.utcoffset = some offset → 60000000 ∣ offset

/-- JSON has a form for everything in the spec. -/
structure StrategySpec.Encodable (spec : StrategySpec) : Prop where
  offset : WholeMinutes spec.createdAt
  fees : ∀ pine, spec.pineValidation = some pine → ∃ value, pine.feesPct = .finite value
  slippage : ∀ pine, spec.pineValidation = some pine → ∃ value, pine.slippagePct = .finite value

/-- Of a spec, pydantic reads back every datetime whose offset is of whole minutes,
every date and every number that it writes. -/
structure Pydantic.ReadsBack (pydantic : Pydantic) (spec : StrategySpec) : Prop where
  createdAt : WholeMinutes spec.createdAt →
    pydantic.parseDatetime (.str (pydantic.datetimeText spec.createdAt)) = some spec.createdAt
  dates : ∀ pine, spec.pineValidation = some pine →
    ∀ date ∈ [pine.testPeriodStart, pine.testPeriodEnd],
      pydantic.parseDate (.str (pydantic.dateText date)) = some date
  numbers : ∀ pine, spec.pineValidation = some pine →
    ∀ value, .finite value ∈ [pine.feesPct, pine.slippagePct] →
      PyFloat.ofStr (pydantic.floatText value) = some (.finite value)

section ReadBack

variable {pydantic : Pydantic} {spec : StrategySpec}

theorem readFloat_dumpFloat {x : PyFloat} (hfinite : ∃ value, x = .finite value)
    (hreads : ∀ value, x = .finite value →
      PyFloat.ofStr (pydantic.floatText value) = some (.finite value)) :
    readFloat (dumpFloat pydantic x) = some x := by
  obtain ⟨value, rfl⟩ := hfinite
  exact hreads value rfl

theorem modelValidate_modelDump_pine (hencodable : spec.Encodable)
    (hreads : pydantic.ReadsBack spec) {pine : PineValidationAssumptions}
    (hpine : spec.pineValidation = some pine) :
    PineValidationAssumptions.modelValidate pydantic (pine.modelDump pydantic) = some pine := by
  have hstart := hreads.dates pine hpine pine.testPeriodStart (by simp)
  have hend := hreads.dates pine hpine pine.testPeriodEnd (by simp)
  have hfees : readFloat (dumpFloat pydantic pine.feesPct) = some pine.feesPct :=
    readFloat_dumpFloat (hencodable.fees pine hpine) fun value hvalue =>
      hreads.numbers pine hpine value (by simp [hvalue])
  have hslippage : readFloat (dumpFloat pydantic pine.slippagePct) = some pine.slippagePct :=
    readFloat_dumpFloat (hencodable.slippage pine hpine) fun value hvalue =>
      hreads.numbers pine hpine value (by simp [hvalue])
  have hnotes : readOptional readText (dumpOptional PyValue.str pine.notes) = some pine.notes :=
    readOptional_dumpOptional fun _ _ => ⟨PyValue.noConfusion, rfl⟩
  have hread : PineFields.read pydantic (pine.entries pydantic) = some pine.toPineFields := by
    have hkeys : onlyKeys PineFields.keys (pine.entries pydantic) = true := onlyKeys_of_map_eq rfl
    rw [PineFields.read, if_pos hkeys]
    simp only [PineValidationAssumptions.entries, field, fieldOr, List.lookup_cons,
      String.reduceBEq, hstart, hend, readTexts_dumpTexts, readText, hfees, hslippage, hnotes,
      Option.bind_some]
    rfl
  show (PineFields.read pydantic (pine.entries pydantic)).bind PineFields.validated = some pine
  rw [hread]
  exact dif_pos pine.valid

/-- What is written of a spec that JSON has a form for is read back as that spec. -/
theorem modelValidate_modelDump (hencodable : spec.Encodable) (hreads : pydantic.ReadsBack spec) :
    StrategySpec.modelValidate pydantic (spec.modelDump pydantic) = some spec := by
  have hcreated := hreads.createdAt hencodable.offset
  have hpine : readOptional (PineValidationAssumptions.modelValidate pydantic)
      (dumpOptional (PineValidationAssumptions.modelDump pydantic) spec.pineValidation) =
        some spec.pineValidation :=
    readOptional_dumpOptional fun pine hpine =>
      ⟨PyValue.noConfusion, modelValidate_modelDump_pine hencodable hreads hpine⟩
  have hread : SpecFields.read pydantic (spec.entries pydantic) = some spec.toSpecFields := by
    have hkeys : onlyKeys SpecFields.keys (spec.entries pydantic) = true := onlyKeys_of_map_eq rfl
    rw [SpecFields.read, if_pos hkeys]
    simp only [StrategySpec.entries, field, fieldOr, List.lookup_cons, String.reduceBEq, hcreated,
      readTexts_dumpTexts, readText, readMember_value, hpine, Option.bind_some]
    rfl
  show (SpecFields.read pydantic (spec.entries pydantic)).bind SpecFields.validated = some spec
  rw [hread]
  exact dif_pos spec.valid

end ReadBack

end Research
end QuantPlatform
