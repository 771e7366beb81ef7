/-
Annotations as their columns hold them.

The text columns have lengths.  The two JSON columns hold what pydantic dumps of the
nested models, which is validated again on the way back; `repr` of a float is a
parameter.  A stored row may hold anything its columns allow, so reading it may raise.

Writing an annotation again rewrites the columns of the update list.  These are all that
the reader reads beside the key, so a stored row reads as the last result written.
-/
import QuantPlatform.AiContext.Persistence
import QuantPlatform.Db.Columns
import QuantPlatform.Python.Validation

namespace QuantPlatform
namespace AiContext

open QuantPlatform.Core Db Relational Validation

section Dump

variable (floatRepr : ℚ → String)

def Confidence.dump (confidence : Confidence) : PyValue := confidence.value.toValue floatRepr

def EntityLink.modelDump (link : EntityLink) : PyValue :=
  .dict
    [("company_name", .str link.companyName),
      ("ticker", dumpOptional .str link.ticker),
      ("exchange", dumpOptional .str link.exchange),
      ("match_status", .str (StrEnum.value link.matchStatus)),
      ("confidence", link.confidence.dump floatRepr)]

def HorizonAssessment.modelDump (assessment : HorizonAssessment) : PyValue :=
  .dict
    [("expected_direction", .str (StrEnum.value assessment.expectedDirection)),
      ("confidence", assessment.confidence.dump floatRepr)]

def ImpactHorizon.modelDump (horizon : ImpactHorizon) : PyValue :=
  .dict
    [("one_day", horizon.oneDay.modelDump floatRepr),
      ("five_day", horizon.fiveDay.modelDump floatRepr),
      ("ten_day", horizon.tenDay.modelDump floatRepr),
      ("long_term", horizon.longTerm.modelDump floatRepr)]

def dumpEntities (entities : List EntityLink) : PyValue :=
  dumpList (EntityLink.modelDump floatRepr) entities

end Dump

def readConfidence (value : PyValue) : Option Confidence :=
  (readFloat value).bind fun x => if h : isConfidence x then some ⟨x, h⟩ else none

def EntityLink.modelValidate : PyValue → Option EntityLink
  | .dict entries => do
      let companyName ← field entries "company_name" readText
      let ticker ← fieldOr none entries "ticker" (readOptional readText)
      let exchange ← fieldOr none entries "exchange" (readOptional readText)
      let matchStatus ← field entries "match_status" (readMember EntityMatchStatus)
      let confidence ← field entries "confidence" readConfidence
      return { companyName, ticker, exchange, matchStatus, confidence }
  | _ => none

def HorizonAssessment.modelValidate : PyValue → Option HorizonAssessment
  | .dict entries => do
      let expectedDirection ← field entries "expected_direction" (readMember ExpectedDirection)
      let confidence ← field entries "confidence" readConfidence
      return { expectedDirection, confidence }
  | _ => none

def ImpactHorizon.modelValidate : PyValue → Option ImpactHorizon
  | .dict entries => do
      let oneDay ← field entries "one_day" HorizonAssessment.modelValidate
      let fiveDay ← field entries "five_day" HorizonAssessment.modelValidate
      let tenDay ← field entries "ten_day" HorizonAssessment.modelValidate
      let longTerm ← field entries "long_term" HorizonAssessment.modelValidate
      return { oneDay, fiveDay, tenDay, longTerm }
  | _ => none

/-- `_ENTITY_LIST_ADAPTER.validate_python`. -/
def validateEntities : PyValue → Option (List EntityLink) := readList EntityLink.modelValidate

structure StoredAnnotation where
  source : String
  externalId : String
  eventKind : String
  modelName : String
  modelVersion : String
  eventTime : Instant
  availableAt : Instant
  ingestedAt : Instant
  status : String
  eventType : String
  impactDirection : String
  impactDuration : String
  novelty : String
  duplicateClusterId : Option String
  sourceReliability : String
  impactHorizon : PyValue
  entities : PyValue
  summary : String
  rationale : String
  parseError : Option String

def StoredAnnotation.naturalKey (row : StoredAnnotation) : AnnotationKey :=
  { source := row.source, externalId := row.externalId, eventKind := row.eventKind
    modelName := row.modelName, modelVersion := row.modelVersion }

abbrev StoredAnnotations := Table StoredAnnotation StoredAnnotation.naturalKey

/-- What the columns make of a row. -/
def store (floatRepr : ℚ → String) (row : AIContextAnnotationRow) :
    Except Raised StoredAnnotation := do
  let source ← varchar 32 row.source
  let externalId ← varchar 128 row.externalId
  let eventKind ← varchar 16 row.eventKind
  let modelName ← varchar 64 row.modelName
  let modelVersion ← varchar 64 row.modelVersion
  let status ← varchar 16 row.status
  let eventType ← varchar 32 row.eventType
  let impactDirection ← varchar 16 row.impactDirection
  let impactDuration ← varchar 16 row.impactDuration
  let novelty ← varchar 16 row.novelty
  let duplicateClusterId ← row.duplicateClusterId.mapM (varchar 128)
  let sourceReliability ← varchar 16 row.sourceReliability
  let impactHorizon ← jsonb (row.impactHorizon.modelDump floatRepr)
  let entities ← jsonb (dumpEntities floatRepr row.entities)
  let summary ← textColumn row.summary
  let rationale ← textColumn row.rationale
  let parseError ← row.parseError.mapM textColumn
  return {
    source, externalId, eventKind, modelName, modelVersion, status, eventType, impactDirection
    impactDuration, novelty, duplicateClusterId, sourceReliability, impactHorizon, entities
    summary, rationale, parseError
    eventTime := row.eventTime
    availableAt := row.availableAt
    ingestedAt := row.ingestedAt }

/-- `_UPDATE_COLUMNS` and `ingested_at`. -/
def setOutcome : ConflictClause StoredAnnotation StoredAnnotation.naturalKey where
  set old new :=
    { old with
      ingestedAt := new.ingestedAt
      status := new.status
      eventType := new.eventType
      impactDirection := new.impactDirection
      impactDuration := new.impactDuration
      novelty := new.novelty
      duplicateClusterId := new.duplicateClusterId
      sourceReliability := new.sourceReliability
      impactHorizon := new.impactHorizon
      entities := new.entities
      summary := new.summary
      rationale := new.rationale
      parseError := new.parseError }
  key_set _ _ := rfl

/-- `persist_annotations`. -/
def persistStored (floatRepr : ℚ → String) (annotations : StoredAnnotations)
    (results : List AIContextResult) (eventTime asOf : Instant) :
    Except Raised (StoredAnnotations × Nat) := do
  let rows ← results.mapM fun result => store floatRepr (annotationRow eventTime asOf result)
  (upsertEventRows setOutcome .update annotations rows).mapError fun e =>
    { cls := .other e, text := "ON CONFLICT DO UPDATE command cannot affect row a second time" }

def validationError : Exn := .other "ValidationError"

/-- What pydantic lets through, or `ValidationError`. -/
def validated {α : Type} (value : Option α) : Except Exn α :=
  match value with
  | some a => .ok a
  | none => .error validationError

/-- `_to_result`. -/
def StoredAnnotation.toResult (row : StoredAnnotation) : Except Exn AIContextResult := do
  let status ← StrEnum.lookup ExtractionStatus row.status
  let eventKind ← StrEnum.lookup EventKind row.eventKind
  let entities ← validated (validateEntities row.entities)
  let eventType ← StrEnum.lookup EventType row.eventType
  let impactDirection ← StrEnum.lookup ImpactDirection row.impactDirection
  let impactDuration ← StrEnum.lookup ImpactDurationType row.impactDuration
  let novelty ← StrEnum.lookup Novelty row.novelty
  let sourceReliability ← StrEnum.lookup SourceReliability row.sourceReliability
  let impactHorizon ← validated (ImpactHorizon.modelValidate row.impactHorizon)
  return { status
           source := row.source
           externalId := row.externalId
           eventKind
           modelName := row.modelName
           modelVersion := row.modelVersion
           generatedAt := row.ingestedAt
           entities
           eventType
           impactDirection
           impactDuration
           novelty
           duplicateClusterId := row.duplicateClusterId
           sourceReliability
           impactHorizon
           summary := row.summary
           rationale := row.rationale
           parseError := row.parseError }

abbrev StoredOrder := OrderBy StoredAnnotation fun a b => a.eventTime ≤ b.eventTime

/-- The rows of one item that were available by a cutoff. -/
def storedFilter (source externalId eventKind : String) (asOf : Instant)
    (modelName : Option String) (row : StoredAnnotation) : Bool :=
  decide (row.source = source) && decide (row.externalId = externalId) &&
    decide (row.eventKind = eventKind) && decide (row.availableAt ≤ asOf) &&
    match modelName with
    | none => true
    | some name => decide (row.modelName = name)

/-- `load_annotations_as_of`. -/
def loadStored (order : StoredOrder) (annotations : StoredAnnotations)
    (source externalId : String) (eventKind : EventKind) (asOf : Instant)
    (modelName : Option String) : Except Exn (List AIContextResult) :=
  (order.arrange (annotations.rows.filter
    (storedFilter source externalId (StrEnum.value eventKind) asOf modelName))).mapM
      StoredAnnotation.toResult

end AiContext
end QuantPlatform
