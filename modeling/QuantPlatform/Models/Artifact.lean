/-
A training run as it is recorded in `model_runs`.

The run is started with its parameters and at once finished with its metrics.  A key that
was given before finds the run started under it, which keeps the name, the version and the
parameters it has and gets the metrics of the new call.  What raises is rolled back.
-/
import QuantPlatform.Db.Columns
import QuantPlatform.Db.Runs
import QuantPlatform.Models.Evaluation
import QuantPlatform.Scanners.Persistence

namespace QuantPlatform
namespace Models

open QuantPlatform.Core Db Raise Validation

/-- The same function as that of the scanners. -/
def jsonSafe : PyValue → PyValue := Scanners.jsonSafe

mutual

theorem isJson_jsonSafe : ∀ value : PyValue, isJson (Scanners.jsonSafe value) = true
  | .none | .bool _ | .int _ | .float _ | .str _ | .decimal _ | .datetime _ => rfl
  | .list items | .tuple items => by
    rw [Scanners.jsonSafe, isJson]
    exact isJsonItems_jsonSafeItems items
  | .dict entries => by
    rw [Scanners.jsonSafe, isJson]
    exact isJsonEntries_jsonSafeEntries entries

theorem isJsonItems_jsonSafeItems : ∀ items : List PyValue,
    isJsonItems (Scanners.jsonSafeItems items) = true
  | [] => rfl
  | value :: rest => by
    rw [Scanners.jsonSafeItems, isJsonItems, isJson_jsonSafe value,
      isJsonItems_jsonSafeItems rest]
    rfl

theorem isJsonEntries_jsonSafeEntries : ∀ entries : List (String × PyValue),
    isJsonEntries (Scanners.jsonSafeEntries entries) = true
  | [] => rfl
  | (_, value) :: rest => by
    rw [Scanners.jsonSafeEntries, isJsonEntries, isJson_jsonSafe value,
      isJsonEntries_jsonSafeEntries rest]
    rfl

end

mutual

/-- What is JSON already is left as it is. -/
theorem jsonSafe_of_isJson : ∀ value : PyValue, isJson value = true →
    Scanners.jsonSafe value = value
  | .none, _ | .bool _, _ | .int _, _ | .float _, _ | .str _, _ => rfl
  | .list items, h => by
    rw [isJson] at h
    rw [Scanners.jsonSafe, jsonSafeItems_of_isJson items h]
  | .dict entries, h => by
    rw [isJson] at h
    rw [Scanners.jsonSafe, jsonSafeEntries_of_isJson entries h]

theorem jsonSafeItems_of_isJson : ∀ items : List PyValue, isJsonItems items = true →
    Scanners.jsonSafeItems items = items
  | [], _ => rfl
  | value :: rest, h => by
    rw [isJsonItems, Bool.and_eq_true] at h
    rw [Scanners.jsonSafeItems, jsonSafe_of_isJson value h.1, jsonSafeItems_of_isJson rest h.2]

theorem jsonSafeEntries_of_isJson : ∀ entries : List (String × PyValue),
    isJsonEntries entries = true → Scanners.jsonSafeEntries entries = entries
  | [], _ => rfl
  | (_, value) :: rest, h => by
    rw [isJsonEntries, Bool.and_eq_true] at h
    rw [Scanners.jsonSafeEntries, jsonSafe_of_isJson value h.1,
      jsonSafeEntries_of_isJson rest h.2]

end

theorem jsonb_jsonSafe_eq_ok_iff {value stored : PyValue} :
    jsonb (jsonSafe value) = .ok stored ↔
      jsonbAccepts (jsonSafe value) = true ∧ stored = jsonSafe value := by
  have hjson := isJson_jsonSafe value
  change isJson (jsonSafe value) = true at hjson
  rw [jsonb, serializable_of_isJson _ hjson, jsonDecoded_of_isJson _ hjson]
  cases jsonbAccepts (jsonSafe value) with
  | false => simp
  | true => simp [eq_comm]

inductive CalibrationMethod
  | sigmoid
  | isotonic
  deriving DecidableEq, Repr

def CalibrationMethod.text : CalibrationMethod → String
  | sigmoid => "sigmoid"
  | isotonic => "isotonic"

structure QuantModelConfig where
  regularizationC : PyFloat
  calibrationMethod : CalibrationMethod
  calibrationSplits : Int
  randomState : Int
  deriving DecidableEq, Repr

/-- The arguments of `persist_training_run`. -/
structure TrainingCall where
  modelName : String
  modelVersion : String
  featureSchemaVersion : String
  featureNames : List String
  labelDefinition : LabelDefinition
  config : QuantModelConfig
  trainSampleCount : Int
  validationSampleCount : Int
  splitAsOf : Instant
  validationMetrics : ClassificationMetrics
  metricsByPeriod : List GroupedMetrics
  metricsByRegime : List GroupedMetrics
  artifactPath : String
  idempotencyKey : Option String := none

def LabelDefinition.asdict (definition : LabelDefinition) : PyValue :=
  .dict
    [("horizon_days", .int definition.horizonDays),
      ("return_threshold", .decimal definition.returnThreshold),
      ("version", .str definition.version)]

section Asdict

variable (floatRepr : ℚ → String)

def QuantModelConfig.asdict (config : QuantModelConfig) : PyValue :=
  .dict
    [("regularization_c", config.regularizationC.toValue floatRepr),
      ("calibration_method", .str config.calibrationMethod.text),
      ("calibration_splits", .int config.calibrationSplits),
      ("random_state", .int config.randomState)]

def ClassificationMetrics.asdict (metrics : ClassificationMetrics) : PyValue :=
  .dict
    [("auc", dumpOptional (PyFloat.toValue floatRepr) metrics.auc),
      ("pr_auc", dumpOptional (PyFloat.toValue floatRepr) metrics.prAuc),
      ("precision", dumpOptional (PyFloat.toValue floatRepr) metrics.precision),
      ("recall", dumpOptional (PyFloat.toValue floatRepr) metrics.«recall»),
      ("brier_score", metrics.brierScore.toValue floatRepr),
      ("expected_calibration_error", metrics.expectedCalibrationError.toValue floatRepr),
      ("positive_rate", metrics.positiveRate.toValue floatRepr),
      ("sample_count", .int metrics.sampleCount)]

def GroupedMetrics.asdict (grouped : GroupedMetrics) : PyValue :=
  .dict
    [("group_key", .str grouped.groupKey), ("metrics", grouped.metrics.asdict floatRepr)]

namespace TrainingCall

def params (call : TrainingCall) : PyValue :=
  .dict
    [("feature_schema_version", .str call.featureSchemaVersion),
      ("feature_names", dumpTexts call.featureNames),
      ("label_definition", call.labelDefinition.asdict),
      ("config", call.config.asdict floatRepr),
      ("train_sample_count", .int call.trainSampleCount),
      ("validation_sample_count", .int call.validationSampleCount),
      ("split_as_of", .datetime call.splitAsOf),
      ("artifact_path", .str call.artifactPath)]

def metrics (call : TrainingCall) : PyValue :=
  .dict
    [("validation", call.validationMetrics.asdict floatRepr),
      ("by_period", dumpList (GroupedMetrics.asdict floatRepr) call.metricsByPeriod),
      ("by_regime", dumpList (GroupedMetrics.asdict floatRepr) call.metricsByRegime)]

/-- The values of the insert, as the columns take them. -/
def runValues (call : TrainingCall) (idempotencyKey : Option String) :
    Except Raised RunValues := do
  let modelName ← varchar 128 call.modelName
  let modelVersion ← varchar 32 call.modelVersion
  let params ← jsonb (jsonSafe (call.params floatRepr))
  return { modelName, modelVersion := some modelVersion, params := some params, idempotencyKey }

/-- The insert where no run has the key. -/
def insertRun (call : TrainingCall) (runs : ModelRuns) (idempotencyKey : Option String) :
    Except Raised (ModelRuns × Nat) := do
  let values ← call.runValues floatRepr idempotencyKey
  return ((runs.startRun values).1, (runs.startRun values).2.1)

/-- `start_run`.  The column may cut spaces off the key, which another run may then have. -/
def startRun (call : TrainingCall) (runs : ModelRuns) : Except Raised (ModelRuns × Nat) :=
  match call.idempotencyKey with
  | none => call.insertRun floatRepr runs none
  | some key => do
      let sought ← textColumn key
      match runs.findByKey sought with
      | some existing => return (runs, existing.id)
      | none =>
          let stored ← varchar 128 key
          if (runs.findByKey stored).isSome then
            throw { cls := .other .integrityError, text := "duplicate key value" }
          call.insertRun floatRepr runs (some stored)

end TrainingCall

def persistTrainingRun (runs : ModelRuns) (call : TrainingCall) :
    Except Raised (ModelRuns × Nat) := do
  let (started, runId) ← call.startRun floatRepr runs
  let metrics ← jsonb (jsonSafe (call.metrics floatRepr))
  return (started.finishRun runId "completed" (some metrics), runId)

/-- The table once the call's transaction has ended. -/
def TrainingCall.commit (runs : ModelRuns) (call : TrainingCall) : ModelRuns :=
  match persistTrainingRun floatRepr runs call with
  | .ok (written, _) => written
  | .error _ => runs

/-- The table after one call after another. -/
def persistAll (runs : ModelRuns) (calls : List TrainingCall) : ModelRuns :=
  calls.foldl (TrainingCall.commit floatRepr) runs

theorem persistAll_append (runs : ModelRuns) (calls : List TrainingCall) (call : TrainingCall) :
    persistAll floatRepr runs (calls ++ [call]) =
      call.commit floatRepr (persistAll floatRepr runs calls) :=
  List.foldl_concat _ _ _ _

end Asdict

/-! ## What one call does -/

theorem textColumn_eq_ok_iff {text stored : String} :
    textColumn text = .ok stored ↔ hasNul text = false ∧ stored = text := by
  rw [textColumn]
  cases hasNul text with
  | true => simp
  | false => simp [eq_comm]

namespace TrainingCall

variable {floatRepr : ℚ → String} {call : TrainingCall} {runs started : ModelRuns} {runId : Nat}

theorem runValues_eq_ok_iff {key : Option String} {values : RunValues} :
    call.runValues floatRepr key = .ok values ↔
      ∃ modelName modelVersion, varchar 128 call.modelName = .ok modelName ∧
        varchar 32 call.modelVersion = .ok modelVersion ∧
        jsonbAccepts (jsonSafe (call.params floatRepr)) = true ∧
        values = {
          modelName, modelVersion := some modelVersion
          params := some (jsonSafe (call.params floatRepr)), idempotencyKey := key } := by
  simp only [runValues, bind_eq_ok_iff, jsonb_jsonSafe_eq_ok_iff]
  constructor
  · rintro ⟨modelName, hname, modelVersion, hversion, params, ⟨haccepts, rfl⟩, hvalues⟩
    exact ⟨modelName, modelVersion, hname, hversion, haccepts, (Except.ok.inj hvalues).symm⟩
  · rintro ⟨modelName, modelVersion, hname, hversion, haccepts, rfl⟩
    exact ⟨modelName, hname, modelVersion, hversion, _, ⟨haccepts, rfl⟩, rfl⟩

theorem insertRun_eq_ok {key : Option String} (hnew : ∀ k, key = some k → runs.findByKey k = none)
    (h : call.insertRun floatRepr runs key = .ok (started, runId)) :
    ∃ values, call.runValues floatRepr key = .ok values ∧
      started.rows = runs.rows ++ [values.toRow runs.nextId] ∧ runId = runs.nextId := by
  obtain ⟨values, hvalues, h⟩ := bind_eq_ok_iff.mp h
  have hkey : values.idempotencyKey = key := by
    obtain ⟨_, _, _, _, _, rfl⟩ := runValues_eq_ok_iff.mp hvalues
    rfl
  have heq := Except.ok.inj h
  rcases runs.startRun_cases values with ⟨existing, k, hk, hfind, _⟩ | ⟨_, new, hstart, hrows, _⟩
  · rw [hnew k (hkey.symm.trans hk)] at hfind
    cases hfind
  · rw [hstart, Prod.mk.injEq] at heq
    obtain ⟨rfl, rfl⟩ := heq
    exact ⟨values, hvalues, hrows, rfl⟩

/-- A call goes on with the run under its key, or with a new one that has its values. -/
theorem startRun_cases (h : call.startRun floatRepr runs = .ok (started, runId)) :
    (∃ key existing, call.idempotencyKey = some key ∧ runs.findByKey key = some existing ∧
        started = runs ∧ runId = existing.id) ∨
      ∃ key values, call.runValues floatRepr key = .ok values ∧
        started.rows = runs.rows ++ [values.toRow runs.nextId] ∧ runId = runs.nextId := by
  unfold startRun at h
  cases hkey : call.idempotencyKey with
  | none =>
    rw [hkey] at h
    have hnew : ∀ k, none = some k → runs.findByKey k = none := by
      intro k hk
      cases hk
    obtain ⟨values, hvalues, hrows, hid⟩ := insertRun_eq_ok hnew h
    exact Or.inr ⟨none, values, hvalues, hrows, hid⟩
  | some key =>
    rw [hkey] at h
    obtain ⟨sought, hsought, h⟩ := bind_eq_ok_iff.mp h
    obtain ⟨_, rfl⟩ := textColumn_eq_ok_iff.mp hsought
    cases hfind : runs.findByKey sought with
    | some existing =>
      rw [hfind] at h
      obtain ⟨rfl, rfl⟩ := Prod.mk.inj (Except.ok.inj h)
      exact Or.inl ⟨sought, existing, rfl, hfind, rfl, rfl⟩
    | none =>
      rw [hfind] at h
      obtain ⟨stored, _, h⟩ := bind_eq_ok_iff.mp h
      cases htaken : runs.findByKey stored with
      | some other =>
        rw [htaken] at h
        cases h
      | none =>
        rw [htaken] at h
        have hnew : ∀ k, some stored = some k → runs.findByKey k = none := by
          rintro k hk
          rw [← Option.some.inj hk]
          exact htaken
        obtain ⟨values, hvalues, hrows, hid⟩ := insertRun_eq_ok hnew h
        exact Or.inr ⟨some stored, values, hvalues, hrows, hid⟩

end TrainingCall

end Models
end QuantPlatform
