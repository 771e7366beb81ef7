/-
The fixed output schema of an extraction.

Every classification field has an explicit `unknown`, so a result is total: a
failed extraction has the same shape as a successful one.  The two pydantic
models nested in a result are structures here.  Their confidence is what pydantic
lets through when it builds one.
-/
import QuantPlatform.Python.Numerals
import QuantPlatform.Python.StrEnum

namespace QuantPlatform
namespace AiContext

inductive EventKind
  | news
  | disclosure
  deriving DecidableEq, Repr

inductive ExtractionStatus
  | ok
  | unknown
  deriving DecidableEq, Repr

inductive EventType
  | earnings
  | guidance
  | mergerAcquisition
  | regulatory
  | product
  | managementChange
  | litigation
  | macroeconomic
  | supplyChain
  | other
  | unknown
  deriving DecidableEq, Repr

inductive ImpactDirection
  | direct
  | indirect
  | unknown
  deriving DecidableEq, Repr

inductive ImpactDurationType
  | oneOff
  | structural
  | unknown
  deriving DecidableEq, Repr

inductive Novelty
  | new
  | duplicate
  | followUp
  | unknown
  deriving DecidableEq, Repr

inductive SourceReliability
  | high
  | medium
  | low
  | unknown
  deriving DecidableEq, Repr

inductive ExpectedDirection
  | up
  | down
  | neutral
  | unknown
  deriving DecidableEq, Repr

inductive EntityMatchStatus
  | matched
  | ambiguous
  | unmatched
  deriving DecidableEq, Repr

instance : StrEnum EventKind where
  members := [.news, .disclosure]
  value
    | .news => "news"
    | .disclosure => "disclosure"
  complete a := by cases a <;> decide
  distinct := by decide

instance : StrEnum ExtractionStatus where
  members := [.ok, .unknown]
  value
    | .ok => "ok"
    | .unknown => "unknown"
  complete a := by cases a <;> decide
  distinct := by decide

instance : StrEnum EventType where
  members :=
    [.earnings, .guidance, .mergerAcquisition, .regulatory, .product, .managementChange,
      .litigation, .macroeconomic, .supplyChain, .other, .unknown]
  value
    | .earnings => "earnings"
    | .guidance => "guidance"
    | .mergerAcquisition => "merger_acquisition"
    | .regulatory => "regulatory"
    | .product => "product"
    | .managementChange => "management_change"
    | .litigation => "litigation"
    | .macroeconomic => "macro"
    | .supplyChain => "supply_chain"
    | .other => "other"
    | .unknown => "unknown"
  complete a := by cases a <;> decide
  distinct := by decide

instance : StrEnum ImpactDirection where
  members := [.direct, .indirect, .unknown]
  value
    | .direct => "direct"
    | .indirect => "indirect"
    | .unknown => "unknown"
  complete a := by cases a <;> decide
  distinct := by decide

instance : StrEnum ImpactDurationType where
  members := [.oneOff, .structural, .unknown]
  value
    | .oneOff => "one_off"
    | .structural => "structural"
    | .unknown => "unknown"
  complete a := by cases a <;> decide
  distinct := by decide

instance : StrEnum Novelty where
  members := [.new, .duplicate, .followUp, .unknown]
  value
    | .new => "new"
    | .duplicate => "duplicate"
    | .followUp => "follow_up"
    | .unknown => "unknown"
  complete a := by cases a <;> decide
  distinct := by decide

instance : StrEnum ExpectedDirection where
  members := [.up, .down, .neutral, .unknown]
  value
    | .up => "up"
    | .down => "down"
    | .neutral => "neutral"
    | .unknown => "unknown"
  complete a := by cases a <;> decide
  distinct := by decide

instance : StrEnum EntityMatchStatus where
  members := [.matched, .ambiguous, .unmatched]
  value
    | .matched => "matched"
    | .ambiguous => "ambiguous"
    | .unmatched => "unmatched"
  complete a := by cases a <;> decide
  distinct := by decide

instance : StrEnum SourceReliability where
  members := [.high, .medium, .low, .unknown]
  value
    | .high => "high"
    | .medium => "medium"
    | .low => "low"
    | .unknown => "unknown"
  complete a := by cases a <;> decide
  distinct := by decide

/-- `Field(ge=0.0, le=1.0)`: what is below zero or above one is refused, and a NaN is
neither. -/
def isConfidence : PyFloat → Prop
  | .finite value => 0 ≤ value ∧ value ≤ 1
  | .infinity _ => False
  | .nan => True

instance (x : PyFloat) : Decidable (isConfidence x) := by
  cases x <;> unfold isConfidence <;> infer_instance

structure Confidence where
  value : PyFloat
  valid : isConfidence value
  deriving DecidableEq

structure EntityLink where
  companyName : String
  ticker : Option String := none
  exchange : Option String := none
  matchStatus : EntityMatchStatus
  confidence : Confidence
  deriving DecidableEq

structure HorizonAssessment where
  expectedDirection : ExpectedDirection
  confidence : Confidence
  deriving DecidableEq

structure ImpactHorizon where
  oneDay : HorizonAssessment
  fiveDay : HorizonAssessment
  tenDay : HorizonAssessment
  longTerm : HorizonAssessment
  deriving DecidableEq

def unknownHorizon : ImpactHorizon :=
  let unknown : HorizonAssessment :=
    { expectedDirection := .unknown
      confidence := { value := .finite 0, valid := by decide } }
  { oneDay := unknown, fiveDay := unknown, tenDay := unknown, longTerm := unknown }

/-- What a model is constrained to produce: every field is required. -/
structure LLMContextOutput where
  entities : List EntityLink
  eventType : EventType
  impactDirection : ImpactDirection
  impactDuration : ImpactDurationType
  novelty : Novelty
  duplicateClusterId : Option String
  sourceReliability : SourceReliability
  impactHorizon : ImpactHorizon
  summary : String
  rationale : String
  deriving DecidableEq

structure AIContextResult where
  status : ExtractionStatus
  source : String
  externalId : String
  eventKind : EventKind
  modelName : String
  modelVersion : String
  generatedAt : Instant
  entities : List EntityLink := []
  eventType : EventType := .unknown
  impactDirection : ImpactDirection := .unknown
  impactDuration : ImpactDurationType := .unknown
  novelty : Novelty := .unknown
  duplicateClusterId : Option String := none
  sourceReliability : SourceReliability := .unknown
  impactHorizon : ImpactHorizon := unknownHorizon
  summary : String := ""
  rationale : String := ""
  parseError : Option String := none
  deriving DecidableEq

end AiContext
end QuantPlatform
