import QuantPlatform.Models.Artifact

namespace QuantPlatform
namespace Models

open QuantPlatform.Core Db Raise

/-- What a row says of a model. -/
structure RunRecord where
  modelName : String
  modelVersion : Option String
  params : Option PyValue
  metrics : Option PyValue

def recordOf (row : ModelRunRow) : RunRecord :=
  { modelName := row.modelName, modelVersion := row.modelVersion, params := row.params
    metrics := row.metrics }

namespace TrainingCall

/-- What the call has to say, as the columns take it. -/
def record (floatRepr : ℚ → String) (call : TrainingCall) : Except Raised RunRecord := do
  let values ← call.runValues floatRepr none
  let metrics ← jsonb (jsonSafe (call.metrics floatRepr))
  return {
    modelName := values.modelName, modelVersion := values.modelVersion, params := values.params
    metrics := some metrics }

/-- The run found under the call's key, if there is one, has the call's metrics already, or is
one of the call's own model, version and parameters. -/
def RecordsItself (floatRepr : ℚ → String) (runs : ModelRuns) (call : TrainingCall) : Prop :=
  ∀ key row metrics, call.idempotencyKey = some key → runs.findByKey key = some row →
    jsonb (jsonSafe (call.metrics floatRepr)) = .ok metrics →
    row.metrics = some metrics ∨
      call.record floatRepr = .ok { recordOf row with metrics := some metrics }

section Step

variable {floatRepr : ℚ → String} {call : TrainingCall} {runs : ModelRuns}

theorem record_eq_ok_iff {record : RunRecord} :
    call.record floatRepr = .ok record ↔
      ∃ modelName modelVersion, varchar 128 call.modelName = .ok modelName ∧
        varchar 32 call.modelVersion = .ok modelVersion ∧
        jsonbAccepts (jsonSafe (call.params floatRepr)) = true ∧
        jsonbAccepts (jsonSafe (call.metrics floatRepr)) = true ∧
        record = {
          modelName, modelVersion := some modelVersion
          params := some (jsonSafe (call.params floatRepr))
          metrics := some (jsonSafe (call.metrics floatRepr)) } := by
  simp only [TrainingCall.record, bind_eq_ok_iff, runValues_eq_ok_iff, jsonb_jsonSafe_eq_ok_iff]
  constructor
  · rintro ⟨_, ⟨modelName, modelVersion, hname, hversion, hparams, rfl⟩, _, ⟨hmetrics, rfl⟩, h⟩
    exact ⟨modelName, modelVersion, hname, hversion, hparams, hmetrics, (Except.ok.inj h).symm⟩
  · rintro ⟨modelName, modelVersion, hname, hversion, hparams, hmetrics, rfl⟩
    exact ⟨_, ⟨modelName, modelVersion, hname, hversion, hparams, rfl⟩, _, ⟨hmetrics, rfl⟩, rfl⟩

theorem record_of_runValues {key : Option String} {values : RunValues} {metrics : PyValue}
    (hvalues : call.runValues floatRepr key = .ok values)
    (hmetrics : jsonb (jsonSafe (call.metrics floatRepr)) = .ok metrics) (id : Nat) :
    call.record floatRepr = .ok (recordOf { values.toRow id with
      status := "completed", metrics := some metrics }) := by
  obtain ⟨modelName, modelVersion, hname, hversion, hparams, rfl⟩ :=
    runValues_eq_ok_iff.mp hvalues
  obtain ⟨haccepts, rfl⟩ := jsonb_jsonSafe_eq_ok_iff.mp hmetrics
  exact record_eq_ok_iff.mpr ⟨modelName, modelVersion, hname, hversion, hparams, haccepts, rfl⟩

theorem modelVersion_of_record {record : RunRecord} (h : call.record floatRepr = .ok record) :
    ∃ version, varchar 32 call.modelVersion = .ok version ∧
      record.modelVersion = some version := by
  obtain ⟨_, version, _, hversion, _, _, rfl⟩ := record_eq_ok_iff.mp h
  exact ⟨version, hversion, rfl⟩

theorem metrics_of_record {record : RunRecord} (h : call.record floatRepr = .ok record) :
    record.metrics = some (jsonSafe (call.metrics floatRepr)) := by
  obtain ⟨_, _, _, _, _, _, rfl⟩ := record_eq_ok_iff.mp h
  rfl

/-- A call is rolled back, or writes its metrics over those of the run under its key, or adds
a run that has its record. -/
theorem commit_cases (floatRepr : ℚ → String) (call : TrainingCall) (runs : ModelRuns) :
    call.commit floatRepr runs = runs ∨
      (∃ key existing metrics, call.idempotencyKey = some key ∧
        runs.findByKey key = some existing ∧
        jsonb (jsonSafe (call.metrics floatRepr)) = .ok metrics ∧
        call.commit floatRepr runs = runs.finishRun existing.id "completed" (some metrics)) ∨
      ∃ added, call.record floatRepr = .ok (recordOf added) ∧
        ∀ row, row ∈ (call.commit floatRepr runs).rows ↔ row ∈ runs.rows ∨ row = added := by
  unfold commit
  cases hrun : persistTrainingRun floatRepr runs call with
  | error e => exact Or.inl rfl
  | ok result =>
    obtain ⟨⟨started, runId⟩, hstart, hfinish⟩ := bind_eq_ok_iff.mp hrun
    obtain ⟨metrics, hmetrics, hfinish⟩ := bind_eq_ok_iff.mp hfinish
    rw [← Except.ok.inj hfinish]
    dsimp only
    obtain ⟨key, existing, hkey, hfind, rfl, rfl⟩ | ⟨key, values, hvalues, hrows, rfl⟩ :=
      startRun_cases hstart
    · exact Or.inr (Or.inl ⟨key, existing, metrics, hkey, hfind, hmetrics, rfl⟩)
    · exact Or.inr (Or.inr ⟨_, record_of_runValues hvalues hmetrics _,
        runs.mem_finishRun_added_iff hrows rfl "completed" (some metrics)⟩)

/-- After a call that records itself a row says what it said before, or what the call says. -/
theorem recordOf_mem_commit (hcall : call.RecordsItself floatRepr runs) {row : ModelRunRow}
    (hrow : row ∈ (call.commit floatRepr runs).rows) :
    (∃ old ∈ runs.rows, old.id = row.id ∧ recordOf row = recordOf old) ∨
      call.record floatRepr = .ok (recordOf row) := by
  obtain hsame | ⟨key, existing, metrics, hkey, hfind, hmetrics, hcommit⟩ | ⟨added, hadded, hmem⟩ :=
    commit_cases floatRepr call runs
  · rw [hsame] at hrow
    exact Or.inl ⟨row, hrow, rfl, rfl⟩
  · rw [hcommit, ModelRuns.mem_finishRun_iff] at hrow
    obtain ⟨_, hrow⟩ | ⟨old, hold, hid, rfl⟩ := hrow
    · exact Or.inl ⟨row, hrow, rfl, rfl⟩
    · obtain ⟨hexisting, _⟩ := ModelRuns.findByKey_eq_some hfind
      have heq := runs.eq_of_id_eq hold hexisting hid
      rcases hcall key existing metrics hkey hfind hmetrics with hunchanged | hown
      · refine Or.inl ⟨existing, hexisting, hid.symm, ?_⟩
        rw [heq]
        simp only [recordOf, hunchanged]
      · rw [heq]
        exact Or.inr hown
  · rcases (hmem row).mp hrow with hrow | rfl
    · exact Or.inl ⟨row, hrow, rfl, rfl⟩
    · exact Or.inr hadded

/-- A call that finds a run under its key writes its metrics there, whatever run it is. -/
theorem commit_of_found {key : String} {existing : ModelRunRow} {metrics : PyValue}
    (hkey : call.idempotencyKey = some key) (hnul : hasNul key = false)
    (hfind : runs.findByKey key = some existing)
    (hmetrics : jsonb (jsonSafe (call.metrics floatRepr)) = .ok metrics) :
    call.commit floatRepr runs = runs.finishRun existing.id "completed" (some metrics) := by
  have hsought := textColumn_eq_ok_iff.mpr ⟨hnul, rfl⟩
  have hstart : call.startRun floatRepr runs = .ok (runs, existing.id) := by
    rw [startRun, hkey]
    refine bind_eq_ok_iff.mpr ⟨key, hsought, ?_⟩
    rw [hfind]
    rfl
  have hrun : persistTrainingRun floatRepr runs call =
      .ok (runs.finishRun existing.id "completed" (some metrics), existing.id) :=
    bind_eq_ok_iff.mpr ⟨_, hstart, bind_eq_ok_iff.mpr ⟨metrics, hmetrics, rfl⟩⟩
  rw [commit, hrun]

/-- So the rows are told apart by the calls that wrote them only when a call records itself. -/
theorem recordsItself_iff (hnul : ∀ key, call.idempotencyKey = some key → hasNul key = false) :
    call.RecordsItself floatRepr runs ↔
      ∀ row ∈ (call.commit floatRepr runs).rows,
        (∃ old ∈ runs.rows, old.id = row.id ∧ recordOf row = recordOf old) ∨
          call.record floatRepr = .ok (recordOf row) := by
  refine ⟨fun hcall row => recordOf_mem_commit hcall, fun h => ?_⟩
  intro key existing metrics hkey hfind hmetrics
  obtain ⟨hexisting, _⟩ := ModelRuns.findByKey_eq_some hfind
  rw [commit_of_found hkey (hnul key hkey) hfind hmetrics] at h
  obtain ⟨old, hold, hid, hsame⟩ | hown := h
    { existing with status := "completed", metrics := some metrics }
    ((ModelRuns.mem_finishRun_iff ..).mpr (Or.inr ⟨existing, hexisting, rfl, rfl⟩))
  · rw [runs.eq_of_id_eq hold hexisting hid] at hsame
    exact Or.inl (congrArg RunRecord.metrics hsame).symm
  · exact Or.inr hown

end Step

/-- The runs of other versions than the call's say after it what they said before. -/
def KeepsOtherVersions (floatRepr : ℚ → String) (runs : ModelRuns) (call : TrainingCall) :
    Prop :=
  ∀ row ∈ runs.rows,
    (∀ version, varchar 32 call.modelVersion = .ok version → row.modelVersion ≠ some version) →
    ∃ row' ∈ (call.commit floatRepr runs).rows, row'.id = row.id ∧ recordOf row' = recordOf row

theorem keepsOtherVersions_of_recordsItself {floatRepr : ℚ → String} {runs : ModelRuns}
    {call : TrainingCall} (hcall : call.RecordsItself floatRepr runs) :
    call.KeepsOtherVersions floatRepr runs := by
  intro row hrow hversion
  obtain hsame | ⟨key, existing, metrics, hkey, hfind, hmetrics, hcommit⟩ | ⟨added, _, hmem⟩ :=
    commit_cases floatRepr call runs
  · rw [hsame]
    exact ⟨row, hrow, rfl, rfl⟩
  · rw [hcommit]
    by_cases hid : row.id = existing.id
    · obtain ⟨hexisting, _⟩ := ModelRuns.findByKey_eq_some hfind
      have heq := runs.eq_of_id_eq hrow hexisting hid
      refine ⟨{ row with status := "completed", metrics := some metrics },
        (ModelRuns.mem_finishRun_iff ..).mpr (Or.inr ⟨row, hrow, hid, rfl⟩), rfl, ?_⟩
      rcases hcall key existing metrics hkey hfind hmetrics with hunchanged | hown
      · rw [heq]
        simp only [recordOf, hunchanged]
      · obtain ⟨version, hstored, hsame⟩ := modelVersion_of_record hown
        exact absurd (heq ▸ hsame) (hversion version hstored)
    · exact ⟨row, (ModelRuns.mem_finishRun_iff ..).mpr (Or.inl ⟨hid, hrow⟩), rfl, rfl⟩
  · exact ⟨row, (hmem row).mpr (Or.inl hrow), rfl, rfl⟩

end TrainingCall

/-- Every row says what a row of the first table, or one of the calls, says. -/
def Coherent (floatRepr : ℚ → String) (runs₀ : ModelRuns) (calls : List TrainingCall)
    (runs : ModelRuns) : Prop :=
  ∀ row ∈ runs.rows, (∃ row₀ ∈ runs₀.rows, recordOf row = recordOf row₀) ∨
    ∃ call ∈ calls, call.record floatRepr = .ok (recordOf row)

variable {floatRepr : ℚ → String}

theorem Coherent.commit {runs₀ runs : ModelRuns} {calls : List TrainingCall}
    (h : Coherent floatRepr runs₀ calls runs) {call : TrainingCall}
    (hcall : call.RecordsItself floatRepr runs) :
    Coherent floatRepr runs₀ (calls ++ [call]) (call.commit floatRepr runs) := by
  intro row hrow
  obtain ⟨old, hold, _, heq⟩ | hown := TrainingCall.recordOf_mem_commit hcall hrow
  · obtain ⟨row₀, hrow₀, hfirst⟩ | ⟨earlier, hearlier, hrecord⟩ := h old hold
    · exact Or.inl ⟨row₀, hrow₀, heq.trans hfirst⟩
    · refine Or.inr ⟨earlier, List.mem_append_left _ hearlier, ?_⟩
      rw [heq]
      exact hrecord
  · exact Or.inr ⟨call, List.mem_append_right _ (List.mem_singleton_self call), hown⟩

/-- When every call records itself, the calls leave records of one call each. -/
theorem coherent_persistAll {runs₀ : ModelRuns} {calls : List TrainingCall}
    (h : ∀ pre call post, calls = pre ++ call :: post →
      call.RecordsItself floatRepr (persistAll floatRepr runs₀ pre)) :
    Coherent floatRepr runs₀ calls (persistAll floatRepr runs₀ calls) := by
  induction calls using List.reverseRecOn with
  | nil => exact fun row hrow => Or.inl ⟨row, hrow, rfl⟩
  | append_singleton calls call ih =>
    rw [persistAll_append]
    refine (ih fun pre earlier post hcalls => ?_).commit (h calls call [] rfl)
    exact h pre earlier (post ++ [call]) (by rw [hcalls, List.append_assoc]; rfl)

variable (floatRepr) in
/-- In every state of a run of calls that each record themselves, name, version, parameters and
metrics of a row are of one call, and no call changes the record of another version. -/
theorem training_records_coherent (runs₀ : ModelRuns) (calls : List TrainingCall)
    (h : ∀ pre call post, calls = pre ++ call :: post →
      call.RecordsItself floatRepr (persistAll floatRepr runs₀ pre)) :
    ∀ pre post, calls = pre ++ post →
      Coherent floatRepr runs₀ pre (persistAll floatRepr runs₀ pre) ∧
        ∀ call rest, post = call :: rest →
          call.KeepsOtherVersions floatRepr (persistAll floatRepr runs₀ pre) := by
  intro pre post hcalls
  constructor
  · refine coherent_persistAll fun earlier call later hpre => ?_
    exact h earlier call (later ++ post) (by rw [hcalls, hpre, List.append_assoc]; rfl)
  · rintro call rest rfl
    exact TrainingCall.keepsOtherVersions_of_recordsItself (h pre call rest hcalls)

/-- A training of a version, given the key `baseline`. -/
def baselineCall (modelVersion : String) (sampleCount : Nat) : TrainingCall :=
  { modelName := "quant_baseline"
    modelVersion
    featureSchemaVersion
    featureNames
    labelDefinition :=
      { horizonDays := 5, returnThreshold := Decimal.ofInt 0, version := "fwd_return_5d_v1" }
    config :=
      { regularizationC := .finite 1, calibrationMethod := .sigmoid, calibrationSplits := 3
        randomState := 2 }
    trainSampleCount := 160
    validationSampleCount := sampleCount
    splitAsOf := 0
    validationMetrics :=
      { auc := some (.finite (1 / 2)), prAuc := some (.finite (1 / 2))
        precision := some (.finite (1 / 2)), «recall» := some (.finite 1)
        brierScore := .finite (1 / 4), expectedCalibrationError := .finite 0
        positiveRate := .finite (1 / 2), sampleCount }
    metricsByPeriod := []
    metricsByRegime := []
    artifactPath := "artifacts/1001.joblib"
    idempotencyKey := some "baseline" }

/-- `repr` of the floats 0, 1/4, 1/2 and 1. -/
def quarterRepr (q : ℚ) : String :=
  if q = 0 then "0.0" else if q = 1 / 4 then "0.25" else if q = 1 / 2 then "0.5" else "1.0"

/-- A training that is recorded again under its key. -/
theorem repeated_baseline_coherent :
    Coherent quarterRepr ModelRuns.empty [baselineCall "v1" 40, baselineCall "v1" 40]
        (persistAll quarterRepr ModelRuns.empty [baselineCall "v1" 40, baselineCall "v1" 40]) ∧
      (baselineCall "v1" 40).KeepsOtherVersions quarterRepr
        (persistAll quarterRepr ModelRuns.empty [baselineCall "v1" 40]) := by
  have hempty : (baselineCall "v1" 40).RecordsItself quarterRepr ModelRuns.empty :=
    fun key row metrics _ hfind => by cases hfind
  have hagain : (baselineCall "v1" 40).RecordsItself quarterRepr
      ((baselineCall "v1" 40).commit quarterRepr ModelRuns.empty) := by
    intro key row metrics _ hfind hmetrics
    obtain ⟨hrow, _⟩ := ModelRuns.findByKey_eq_some hfind
    obtain ⟨old, hold, _⟩ | hown := TrainingCall.recordOf_mem_commit hempty hrow
    · cases hold
    · rw [(jsonb_jsonSafe_eq_ok_iff.mp hmetrics).2]
      exact Or.inl (TrainingCall.metrics_of_record hown)
  have hcalls : ∀ pre call post,
      [baselineCall "v1" 40, baselineCall "v1" 40] = pre ++ call :: post →
        call.RecordsItself quarterRepr (persistAll quarterRepr ModelRuns.empty pre) := by
    intro pre call post hcalls
    match pre with
    | [] =>
      obtain ⟨rfl, _⟩ := List.cons.inj hcalls
      exact hempty
    | [first] =>
      obtain ⟨rfl, hrest⟩ := List.cons.inj hcalls
      obtain ⟨rfl, _⟩ := List.cons.inj hrest
      have hone : persistAll quarterRepr ModelRuns.empty [baselineCall "v1" 40] =
          (baselineCall "v1" 40).commit quarterRepr ModelRuns.empty :=
        persistAll_append quarterRepr ModelRuns.empty [] _
      rw [hone]
      exact hagain
    | first :: second :: rest =>
      have hlength := congrArg List.length hcalls
      simp only [List.length_cons, List.length_nil, List.length_append] at hlength
      omega
  have hrun := training_records_coherent quarterRepr ModelRuns.empty
    [baselineCall "v1" 40, baselineCall "v1" 40] hcalls
  exact ⟨(hrun _ [] rfl).1, (hrun [baselineCall "v1" 40] [_] rfl).2 _ [] rfl⟩

/-- A second version under the key of the first gives its metrics to the first one's run. -/
theorem second_version_overwrites_first :
    ¬ Coherent quarterRepr ModelRuns.empty [baselineCall "v1" 40, baselineCall "v2" 80]
      (persistAll quarterRepr ModelRuns.empty [baselineCall "v1" 40, baselineCall "v2" 80]) := by
  intro hcoherent
  have hfirst : ((persistAll quarterRepr ModelRuns.empty
      [baselineCall "v1" 40]).findByKey "baseline").map ModelRunRow.modelVersion =
        some (some "v1") := by decide +kernel
  obtain ⟨existing, hfind, hversion⟩ := Option.map_eq_some_iff.mp hfirst
  obtain ⟨hexisting, _⟩ := ModelRuns.findByKey_eq_some hfind
  have hmetrics : jsonb (jsonSafe ((baselineCall "v2" 80).metrics quarterRepr)) =
      .ok (jsonSafe ((baselineCall "v2" 80).metrics quarterRepr)) :=
    jsonb_jsonSafe_eq_ok_iff.mpr ⟨by decide +kernel, rfl⟩
  have hkey : (baselineCall "v2" 80).idempotencyKey = some "baseline" := rfl
  have hcommit := TrainingCall.commit_of_found hkey (by decide) hfind hmetrics
  have hrow := (ModelRuns.mem_finishRun_iff (persistAll quarterRepr ModelRuns.empty
    [baselineCall "v1" 40]) existing.id "completed" (some (jsonSafe
      ((baselineCall "v2" 80).metrics quarterRepr))) _).mpr (Or.inr ⟨existing, hexisting, rfl, rfl⟩)
  rw [← hcommit, ← persistAll_append quarterRepr ModelRuns.empty [baselineCall "v1" 40]] at hrow
  obtain ⟨row₀, hrow₀, _⟩ | ⟨call, hcall, hrecord⟩ := hcoherent _ hrow
  · cases hrow₀
  · rcases List.mem_cons.mp hcall with rfl | hcall
    · have hsame := TrainingCall.metrics_of_record hrecord
      simp [recordOf, jsonSafe, Scanners.jsonSafe, Scanners.jsonSafeEntries,
        TrainingCall.metrics, ClassificationMetrics.asdict, baselineCall] at hsame
    · rw [List.mem_singleton.mp hcall] at hrecord
      obtain ⟨version, hstored, hsame⟩ := TrainingCall.modelVersion_of_record hrecord
      have hv2 : varchar 32 (baselineCall "v2" 80).modelVersion = .ok "v2" :=
        varchar_of_fits (by decide) (by decide)
      rw [← Except.ok.inj (hv2.symm.trans hstored)] at hsame
      change existing.modelVersion = some "v2" at hsame
      rw [hversion] at hsame
      revert hsame
      decide

end Models
end QuantPlatform
