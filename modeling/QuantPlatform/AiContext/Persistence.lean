/-
Annotations: how results are stored and read back.

The table is a plain observed-event table keyed by what was annotated and by
which model version.  `generated_at` is stored as `ingested_at` and `as_of` as
`available_at`.  Writing an annotation again rewrites the outcome columns and
`ingested_at` and keeps the `available_at` it has.

The enumeration columns hold texts and are looked up on the way back.  The two
JSON columns hold what pydantic dumps of a model and reads back as that model,
so they are kept as the models.
-/
import QuantPlatform.AiContext.Schema
import QuantPlatform.Db.Upsert
import QuantPlatform.Python.Raise
import QuantPlatform.Relational.Query

namespace QuantPlatform
namespace AiContext

open Db Relational

structure AnnotationKey where
  source : String
  externalId : String
  eventKind : String
  modelName : String
  modelVersion : String
  deriving DecidableEq, Repr

structure AIContextAnnotationRow where
  source : String
  externalId : String
  eventKind : String
  modelName : String
  modelVersion : String
  eventTime : Instant
  availableAt : Instant
  ingestedAt : Instant
  status : String
  eventType : String
  impactDirection : String
  impactDuration : String
  novelty : String
  duplicateClusterId : Option String
  sourceReliability : String
  impactHorizon : ImpactHorizon
  entities : List EntityLink
  summary : String
  rationale : String
  parseError : Option String
  deriving DecidableEq

def AIContextAnnotationRow.naturalKey (row : AIContextAnnotationRow) : AnnotationKey :=
  { source := row.source, externalId := row.externalId, eventKind := row.eventKind
    modelName := row.modelName, modelVersion := row.modelVersion }

abbrev Annotations := Table AIContextAnnotationRow AIContextAnnotationRow.naturalKey

/-- `_UPDATE_COLUMNS` and `ingested_at`. -/
def updateOutcome : ConflictClause AIContextAnnotationRow AIContextAnnotationRow.naturalKey where
  set old new :=
    { old with
      ingestedAt := new.ingestedAt
      status := new.status
      eventType := new.eventType
      impactDirection := new.impactDirection
      impactDuration := new.impactDuration
      novelty := new.novelty
      duplicateClusterId := new.duplicateClusterId
      sourceReliability := new.sourceReliability
      impactHorizon := new.impactHorizon
      entities := new.entities
      summary := new.summary
      rationale := new.rationale
      parseError := new.parseError }
  key_set _ _ := rfl

def upsertAnnotations (annotations : Annotations) (rows : List AIContextAnnotationRow) :
    Except Exn (Annotations × Nat) :=
  upsertEventRows updateOutcome .update annotations rows

abbrev AnnotationOrder := OrderBy AIContextAnnotationRow fun a b => a.eventTime ≤ b.eventTime

def annotationFilter (source externalId eventKind : String) (asOf : Instant)
    (modelName : Option String) (row : AIContextAnnotationRow) : Bool :=
  decide (row.source = source) && decide (row.externalId = externalId) &&
    decide (row.eventKind = eventKind) && decide (row.availableAt ≤ asOf) &&
    match modelName with
    | none => true
    | some name => decide (row.modelName = name)

def getAnnotationsAsOf (order : AnnotationOrder) (annotations : Annotations)
    (source externalId eventKind : String) (asOf : Instant) (modelName : Option String) :
    List AIContextAnnotationRow :=
  order.arrange (annotations.rows.filter
    (annotationFilter source externalId eventKind asOf modelName))

theorem availableAt_le_of_annotationFilter {source externalId eventKind : String}
    {asOf : Instant} {modelName : Option String} {row : AIContextAnnotationRow}
    (h : annotationFilter source externalId eventKind asOf modelName row = true) :
    row.availableAt ≤ asOf := by
  simp only [annotationFilter, Bool.and_eq_true, decide_eq_true_eq] at h
  exact h.1.2

def annotationRow (eventTime asOf : Instant) (result : AIContextResult) :
    AIContextAnnotationRow :=
  { source := result.source
    externalId := result.externalId
    eventKind := StrEnum.value result.eventKind
    modelName := result.modelName
    modelVersion := result.modelVersion
    eventTime
    availableAt := asOf
    ingestedAt := result.generatedAt
    status := StrEnum.value result.status
    eventType := StrEnum.value result.eventType
    impactDirection := StrEnum.value result.impactDirection
    impactDuration := StrEnum.value result.impactDuration
    novelty := StrEnum.value result.novelty
    duplicateClusterId := result.duplicateClusterId
    sourceReliability := StrEnum.value result.sourceReliability
    impactHorizon := result.impactHorizon
    entities := result.entities
    summary := result.summary
    rationale := result.rationale
    parseError := result.parseError }

def persistAnnotations (annotations : Annotations) (results : List AIContextResult)
    (eventTime asOf : Instant) : Except Exn (Annotations × Nat) :=
  upsertAnnotations annotations (results.map (annotationRow eventTime asOf))

/-- `_to_result`. -/
def toResult (row : AIContextAnnotationRow) : Except Exn AIContextResult := do
  let status ← StrEnum.lookup ExtractionStatus row.status
  let eventKind ← StrEnum.lookup EventKind row.eventKind
  let eventType ← StrEnum.lookup EventType row.eventType
  let impactDirection ← StrEnum.lookup ImpactDirection row.impactDirection
  let impactDuration ← StrEnum.lookup ImpactDurationType row.impactDuration
  let novelty ← StrEnum.lookup Novelty row.novelty
  let sourceReliability ← StrEnum.lookup SourceReliability row.sourceReliability
  return { status
           source := row.source
           externalId := row.externalId
           eventKind
           modelName := row.modelName
           modelVersion := row.modelVersion
           generatedAt := row.ingestedAt
           entities := row.entities
           eventType
           impactDirection
           impactDuration
           novelty
           duplicateClusterId := row.duplicateClusterId
           sourceReliability
           impactHorizon := row.impactHorizon
           summary := row.summary
           rationale := row.rationale
           parseError := row.parseError }

def loadAnnotationsAsOf (order : AnnotationOrder) (annotations : Annotations)
    (source externalId : String) (eventKind : EventKind) (asOf : Instant)
    (modelName : Option String) : Except Exn (List AIContextResult) :=
  (getAnnotationsAsOf order annotations source externalId (StrEnum.value eventKind) asOf
    modelName).mapM toResult

/-- What was stored of a result reads back as that result. -/
theorem toResult_annotationRow (eventTime asOf : Instant) (result : AIContextResult) :
    toResult (annotationRow eventTime asOf result) = .ok result := by
  simp only [toResult, annotationRow, StrEnum.lookup_value]
  rfl

/-- Writing a result over a stored one leaves the row of the new result at the
event time and `available_at` of the old. -/
theorem updateOutcome_annotationRow {eventTime asOf eventTime' asOf' : Instant}
    {old new : AIContextResult}
    (hkey : (annotationRow eventTime asOf old).naturalKey =
      (annotationRow eventTime' asOf' new).naturalKey) :
    updateOutcome.set (annotationRow eventTime asOf old) (annotationRow eventTime' asOf' new) =
      annotationRow eventTime asOf new := by
  simp only [AIContextAnnotationRow.naturalKey, annotationRow, AnnotationKey.mk.injEq] at hkey
  obtain ⟨hsource, hid, hkind, hname, hversion⟩ := hkey
  simp only [updateOutcome, annotationRow, hsource, hid, hkind, hname, hversion]

end AiContext
end QuantPlatform
