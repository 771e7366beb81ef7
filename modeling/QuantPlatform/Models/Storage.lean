import QuantPlatform.Models.Coherence
import QuantPlatform.Models.Training

namespace QuantPlatform
namespace Models

open QuantPlatform.Core Db Raise Validation

/-- `repr` of a finite float is the text of a number. -/
def WritesNumbers (floatRepr : ℚ → String) : Prop :=
  ∀ value, floatRepr value ∉ ["nan", "inf", "-inf"]

section Accepts

variable {floatRepr : ℚ → String} (hrepr : WritesNumbers floatRepr)

include hrepr

theorem jsonbAccepts_toValue_iff {x : PyFloat} :
    jsonbAccepts (x.toValue floatRepr) = true ↔ x.IsFinite := by
  cases x with
  | finite value => exact iff_of_true (decide_eq_true (hrepr value)) trivial
  | infinity negative => cases negative <;> simp [PyFloat.toValue, jsonbAccepts, PyFloat.IsFinite]
  | nan => simp [PyFloat.toValue, jsonbAccepts, PyFloat.IsFinite]

theorem jsonbAccepts_dumpOptional_iff {x : Option PyFloat} :
    jsonbAccepts (dumpOptional (PyFloat.toValue floatRepr) x) = true ↔ ∀ y ∈ x, y.IsFinite := by
  cases x with
  | none => exact iff_of_true rfl nofun
  | some y =>
    rw [dumpOptional, jsonbAccepts_toValue_iff hrepr]
    simp

theorem jsonbAccepts_asdict_iff {metrics : ClassificationMetrics} :
    jsonbAccepts (metrics.asdict floatRepr) = true ↔ ∀ x ∈ metrics.floats, x.IsFinite := by
  have hnames : ∀ name ∈ ["auc", "pr_auc", "precision", "recall", "brier_score",
      "expected_calibration_error", "positive_rate", "sample_count"], hasNul name = false := by
    decide
  simp only [List.forall_mem_cons] at hnames
  simp only [ClassificationMetrics.asdict, jsonbAccepts, jsonbAcceptsEntries, hnames,
    Bool.and_eq_true, jsonbAccepts_dumpOptional_iff hrepr, jsonbAccepts_toValue_iff hrepr,
    ClassificationMetrics.floats, List.forall_mem_append, List.forall_mem_cons,
    Option.mem_toList]
  simp [and_assoc]

theorem jsonbAccepts_grouped_iff {grouped : GroupedMetrics} :
    jsonbAccepts (grouped.asdict floatRepr) = true ↔
      hasNul grouped.groupKey = false ∧ ∀ x ∈ grouped.metrics.floats, x.IsFinite := by
  have hnames : hasNul "group_key" = false ∧ hasNul "metrics" = false := by decide
  simp [GroupedMetrics.asdict, jsonbAccepts, jsonbAcceptsEntries, hnames,
    jsonbAccepts_asdict_iff hrepr]

theorem jsonbAccepts_metrics_iff {call : TrainingCall} :
    jsonbAccepts (call.metrics floatRepr) = true ↔
      (∀ x ∈ call.validationMetrics.floats, x.IsFinite) ∧
        ∀ grouped ∈ call.metricsByPeriod ++ call.metricsByRegime,
          hasNul grouped.groupKey = false ∧ ∀ x ∈ grouped.metrics.floats, x.IsFinite := by
  have hnames : hasNul "validation" = false ∧ hasNul "by_period" = false ∧
      hasNul "by_regime" = false := by decide
  simp only [TrainingCall.metrics, jsonbAccepts, jsonbAcceptsEntries, hnames,
    Bool.and_eq_true, jsonbAccepts_asdict_iff hrepr, jsonbAccepts_dumpList_iff,
    jsonbAccepts_grouped_iff hrepr, List.forall_mem_append]
  simp

end Accepts

theorem isJson_toValue (floatRepr : ℚ → String) (x : PyFloat) :
    isJson (x.toValue floatRepr) = true := by
  cases x <;> rfl

theorem isJson_asdict (floatRepr : ℚ → String) (metrics : ClassificationMetrics) :
    isJson (metrics.asdict floatRepr) = true := by
  simp [ClassificationMetrics.asdict, isJson, isJsonEntries, isJson_toValue,
    isJson_dumpOptional (isJson_toValue floatRepr)]

/-- The metrics are JSON before they are made safe. -/
theorem jsonSafe_metrics (floatRepr : ℚ → String) (call : TrainingCall) :
    jsonSafe (call.metrics floatRepr) = call.metrics floatRepr := by
  have hgrouped : ∀ grouped : GroupedMetrics, isJson (grouped.asdict floatRepr) = true := by
    intro grouped
    simp [GroupedMetrics.asdict, isJson, isJsonEntries, isJson_asdict]
  refine jsonSafe_of_isJson _ ?_
  simp [TrainingCall.metrics, isJson, isJsonEntries, isJson_asdict, isJson_dumpList hgrouped]

/-! ## When a call goes through -/

namespace TrainingCall

/-- Name and version fit their columns, no text of the parameters has a NUL, and the
regularization is a finite number. -/
structure Fits (call : TrainingCall) : Prop where
  modelName : ∃ stored, varchar 128 call.modelName = .ok stored
  modelVersion : ∃ stored, varchar 32 call.modelVersion = .ok stored
  featureSchemaVersion : hasNul call.featureSchemaVersion = false
  featureNames : ∀ name ∈ call.featureNames, hasNul name = false
  labelVersion : hasNul call.labelDefinition.version = false
  regularizationC : call.config.regularizationC.IsFinite
  artifactPath : hasNul call.artifactPath = false

/-- A run of the call can be found, or added. -/
def Startable (runs : ModelRuns) (call : TrainingCall) : Prop :=
  match call.idempotencyKey with
  | none => call.Fits
  | some key =>
      hasNul key = false ∧
        (runs.findByKey key = none →
          (∃ stored, varchar 128 key = .ok stored ∧ runs.findByKey stored = none) ∧ call.Fits)

/-- The call goes through, and its run has the metrics that were handed in. -/
def StoresMetrics (floatRepr : ℚ → String) (runs : ModelRuns) (call : TrainingCall) : Prop :=
  ∃ stored runId, persistTrainingRun floatRepr runs call = .ok (stored, runId) ∧
    ∃ row ∈ stored.rows, row.id = runId ∧ row.metrics = some (call.metrics floatRepr)

variable {floatRepr : ℚ → String} {runs : ModelRuns} {call : TrainingCall}

theorem jsonbAccepts_params_iff (hrepr : WritesNumbers floatRepr) :
    jsonbAccepts (jsonSafe (call.params floatRepr)) = true ↔
      hasNul call.featureSchemaVersion = false ∧
        (∀ name ∈ call.featureNames, hasNul name = false) ∧
        hasNul call.labelDefinition.version = false ∧
        call.config.regularizationC.IsFinite ∧ hasNul call.artifactPath = false := by
  have hnames : ∀ name ∈ ["feature_schema_version", "feature_names", "label_definition",
      "horizon_days", "return_threshold", "version", "config", "regularization_c",
      "calibration_method", "calibration_splits", "random_state", "train_sample_count",
      "validation_sample_count", "split_as_of", "artifact_path"], hasNul name = false := by
    decide
  have hmethod : hasNul call.config.calibrationMethod.text = false := by
    cases call.config.calibrationMethod <;> decide
  have htexts : jsonbAccepts (Scanners.jsonSafe (dumpTexts call.featureNames)) = true ↔
      ∀ name ∈ call.featureNames, hasNul name = false := by
    rw [jsonSafe_of_isJson _ (isJson_dumpTexts _), dumpTexts, jsonbAccepts_dumpList_iff]
    simp [jsonbAccepts]
  have hfloat := jsonSafe_of_isJson _ (isJson_toValue floatRepr call.config.regularizationC)
  simp only [List.forall_mem_cons] at hnames
  simp only [jsonSafe, params, Scanners.jsonSafe, Scanners.jsonSafeEntries, htexts, hfloat,
    LabelDefinition.asdict, QuantModelConfig.asdict, jsonbAccepts, jsonbAcceptsEntries, hnames,
    hmethod, hasNul_str, hasNul_isoformat, jsonbAccepts_toValue_iff hrepr, Bool.and_eq_true,
    Bool.not_eq_true']
  simp

theorem exists_insertRun_iff (hrepr : WritesNumbers floatRepr) {key : Option String} :
    (∃ result, call.insertRun floatRepr runs key = .ok result) ↔ call.Fits := by
  rw [insertRun, exists_bind_pure_iff]
  simp only [runValues_eq_ok_iff, jsonbAccepts_params_iff hrepr]
  constructor
  · rintro ⟨_, modelName, modelVersion, hname, hversion, ⟨hschema, hnames, hlabel, hfinite,
      hpath⟩, _⟩
    exact ⟨⟨modelName, hname⟩, ⟨modelVersion, hversion⟩, hschema, hnames, hlabel, hfinite, hpath⟩
  · rintro ⟨⟨modelName, hname⟩, ⟨modelVersion, hversion⟩, hschema, hnames, hlabel, hfinite, hpath⟩
    exact ⟨_, modelName, modelVersion, hname, hversion, ⟨hschema, hnames, hlabel, hfinite, hpath⟩,
      rfl⟩

theorem exists_startRun_iff (hrepr : WritesNumbers floatRepr) :
    (∃ result, call.startRun floatRepr runs = .ok result) ↔ call.Startable runs := by
  unfold startRun Startable
  cases call.idempotencyKey with
  | none => exact exists_insertRun_iff hrepr
  | some key =>
    dsimp only
    rw [exists_bind_eq_ok_iff]
    simp only [textColumn_eq_ok_iff]
    constructor
    · rintro ⟨_, ⟨hnul, rfl⟩, result, hresult⟩
      refine ⟨hnul, fun hfind => ?_⟩
      rw [hfind] at hresult
      obtain ⟨stored, hstored, hresult⟩ := bind_eq_ok_iff.mp hresult
      cases htaken : runs.findByKey stored with
      | some other =>
        rw [htaken] at hresult
        cases hresult
      | none =>
        rw [htaken] at hresult
        exact ⟨⟨stored, hstored, htaken⟩, (exists_insertRun_iff hrepr).mp ⟨result, hresult⟩⟩
    · rintro ⟨hnul, hnew⟩
      refine ⟨key, ⟨hnul, rfl⟩, ?_⟩
      cases hfind : runs.findByKey key with
      | some existing => exact ⟨_, rfl⟩
      | none =>
        obtain ⟨⟨stored, hstored, htaken⟩, hfits⟩ := hnew hfind
        obtain ⟨result, hresult⟩ := (exists_insertRun_iff hrepr).mpr hfits
        refine ⟨result, bind_eq_ok_iff.mpr ⟨stored, hstored, ?_⟩⟩
        rw [htaken]
        exact hresult

/-- The run that a call goes on with is there. -/
theorem exists_started {started : ModelRuns} {runId : Nat}
    (h : call.startRun floatRepr runs = .ok (started, runId)) :
    ∃ row ∈ started.rows, row.id = runId := by
  obtain ⟨key, existing, _, hfind, rfl, rfl⟩ | ⟨key, values, _, hrows, rfl⟩ := startRun_cases h
  · exact ⟨existing, (ModelRuns.findByKey_eq_some hfind).1, rfl⟩
  · rw [hrows]
    exact ⟨_, List.mem_append_right _ (List.mem_singleton_self _), rfl⟩

theorem storesMetrics_iff (hrepr : WritesNumbers floatRepr) :
    call.StoresMetrics floatRepr runs ↔
      call.Startable runs ∧ jsonbAccepts (call.metrics floatRepr) = true := by
  have hsafe := jsonSafe_metrics floatRepr call
  rw [← exists_startRun_iff hrepr]
  constructor
  · rintro ⟨stored, runId, hrun, _⟩
    obtain ⟨started, hstart, hfinish⟩ := bind_eq_ok_iff.mp hrun
    obtain ⟨metrics, hmetrics, _⟩ := bind_eq_ok_iff.mp hfinish
    have haccepts := (jsonb_jsonSafe_eq_ok_iff.mp hmetrics).1
    exact ⟨⟨started, hstart⟩, hsafe ▸ haccepts⟩
  · rintro ⟨⟨⟨started, runId⟩, hstart⟩, haccepts⟩
    obtain ⟨row, hrow, hid⟩ := exists_started hstart
    have hmetrics : jsonb (jsonSafe (call.metrics floatRepr)) = .ok (call.metrics floatRepr) :=
      jsonb_jsonSafe_eq_ok_iff.mpr ⟨hsafe.symm ▸ haccepts, hsafe.symm⟩
    refine ⟨started.finishRun runId "completed" (some (call.metrics floatRepr)), runId,
      bind_eq_ok_iff.mpr ⟨_, hstart, bind_eq_ok_iff.mpr ⟨_, hmetrics, rfl⟩⟩, ?_⟩
    exact ⟨_, (ModelRuns.mem_finishRun_iff ..).mpr (Or.inr ⟨row, hrow, hid, rfl⟩), hid, rfl⟩

end TrainingCall

section Evaluated

variable {F : Type} {np : Numpy} {sk : Sklearn} (hnp : np.Documented) (hsk : sk.Documented)

include hnp hsk

/-- Of computed groups only a key can be refused. -/
theorem grouped_accepted_iff {samples : List (DatasetSample F)} {yTrue : List Label}
    {yProb : List PyFloat} {groupKeyFn : DatasetSample F → String} {decisionThreshold : PyFloat}
    {grouped : List GroupedMetrics}
    (h : computeMetricsByGroup np sk samples yTrue yProb groupKeyFn decisionThreshold =
      .ok grouped) :
    (∀ g ∈ grouped, hasNul g.groupKey = false ∧ ∀ x ∈ g.metrics.floats, x.IsFinite) ↔
      ∀ sample ∈ samples, hasNul (groupKeyFn sample) = false := by
  constructor
  · intro haccepted sample hsample
    obtain ⟨g, hg, hkey⟩ := exists_group_of_mem h hsample
    rw [← hkey]
    exact (haccepted g hg).1
  · intro hkeys g hg
    obtain ⟨hkey, labels, probabilities, hne, hmetrics⟩ := of_mem_computeMetricsByGroup h hg
    obtain ⟨sample, hsample, heq⟩ := List.mem_map.mp hkey
    rw [← heq]
    exact ⟨hkeys sample hsample, computed_of_ne_nil hnp hsk hne hmetrics⟩

/-- An evaluation is stored exactly when it is of some samples and no key of a group has a NUL,
in a call that can start its run. -/
theorem evaluation_stored_iff {floatRepr : ℚ → String} (hrepr : WritesNumbers floatRepr)
    (runs : ModelRuns) (call : TrainingCall) (periodSamples regimeSamples : List (DatasetSample F))
    (yTrue : List Label) (yProb : List PyFloat) (periodKey regimeKey : DatasetSample F → String)
    (decisionThreshold : PyFloat)
    (hvalidation : computeClassificationMetrics np sk yTrue yProb decisionThreshold =
      .ok call.validationMetrics)
    (hperiod : computeMetricsByGroup np sk periodSamples yTrue yProb periodKey
      decisionThreshold = .ok call.metricsByPeriod)
    (hregime : computeMetricsByGroup np sk regimeSamples yTrue yProb regimeKey
      decisionThreshold = .ok call.metricsByRegime) :
    call.StoresMetrics floatRepr runs ↔
      call.Startable runs ∧ yTrue ≠ [] ∧
        (∀ sample ∈ periodSamples, hasNul (periodKey sample) = false) ∧
        ∀ sample ∈ regimeSamples, hasNul (regimeKey sample) = false := by
  rw [TrainingCall.storesMetrics_iff hrepr, jsonbAccepts_metrics_iff hrepr,
    computed_finite_iff hnp hsk hvalidation, List.forall_mem_append,
    grouped_accepted_iff hnp hsk hperiod, grouped_accepted_iff hnp hsk hregime]

end Evaluated

/-- The number of a finite float. -/
def finiteValue : PyFloat → ℚ
  | .finite value => value
  | _ => 0

/-- The mean by exact arithmetic, and the edges as multiples of the step. -/
def exactNumpy : Numpy where
  mean xs := .ofRat ((xs.map finiteValue).sum / xs.length)
  linspace nBins i :=
    let edge := PyFloat.mul (.ofInt i) (.ratio 1 nBins)
    if PyFloat.le (.finite 0) edge && PyFloat.le edge (.finite 1) then edge else .finite 1

theorem exactNumpy_documented : exactNumpy.Documented where
  mean_bounded xs hne hbounded := by
    have hvalues : ∀ value ∈ xs.map finiteValue, |value| ≤ 2 ^ 63 := by
      intro value hvalue
      obtain ⟨x, hx, rfl⟩ := List.mem_map.mp hvalue
      have hx' := hbounded x hx
      cases x with
      | finite value => exact hx'
      | infinity negative => exact hx'.elim
      | nan => exact hx'.elim
    have hhigh := List.sum_le_card_nsmul _ _ fun value hvalue =>
      (abs_le.mp (hvalues value hvalue)).2
    have hlow := List.card_nsmul_le_sum _ _ fun value hvalue =>
      (abs_le.mp (hvalues value hvalue)).1
    rw [List.length_map, nsmul_eq_mul] at hhigh hlow
    have hpos : (0 : ℚ) < xs.length := Nat.cast_pos.mpr (List.length_pos_iff.mpr hne)
    have hmean : |(xs.map finiteValue).sum / xs.length| ≤ (2 : ℚ) ^ 63 := by
      rw [abs_le, le_div_iff₀ hpos, div_le_iff₀ hpos]
      constructor <;> linarith
    exact (PyFloat.ofRat_bounded (by norm_num) hmean).mono (by norm_num)
  linspace_bounded nBins i _ := by
    have hzero : PyFloat.Bounded (2 ^ 0) (.finite 0) := by norm_num [PyFloat.Bounded]
    have hone : PyFloat.Bounded (2 ^ 0) (.finite 1) := by norm_num [PyFloat.Bounded]
    show PyFloat.Bounded (2 ^ 0) (if _ then _ else _)
    split_ifs with hedge
    · rw [Bool.and_eq_true] at hedge
      exact PyFloat.bounded_of_le hzero hone hedge.1 hedge.2
    · exact hone

/-- The scores of one right and one wrong prediction, each made with a probability of 1/2. -/
def evenSklearn : Sklearn where
  rocAucScore _ _ := .ok (.finite (1 / 2))
  averagePrecisionScore _ _ := .ok (.finite (1 / 2))
  precisionScore yTrue _ :=
    if yTrue.all (fun | .int _ => true | .float _ => false) then .ok (.finite (1 / 2))
    else .error .valueError
  recallScore _ _ := .ok (.finite 1)
  brierScoreLoss _ _ := .ok (.finite (1 / 4))

theorem evenSklearn_documented : evenSklearn.Documented where
  rocAucScore_bounded yTrue yProb score _ h := by
    rw [← Except.ok.inj h]
    norm_num [PyFloat.Bounded]
  averagePrecisionScore_bounded yTrue yProb score h := by
    rw [← Except.ok.inj h]
    norm_num [PyFloat.Bounded]
  precisionScore_bounded yTrue yPred score h := by
    change (if _ then _ else _) = _ at h
    split_ifs at h
    rw [← Except.ok.inj h]
    norm_num [PyFloat.Bounded]
  recallScore_bounded yTrue yPred score h := by
    rw [← Except.ok.inj h]
    norm_num [PyFloat.Bounded]
  brierScoreLoss_bounded yTrue yProb score h := by
    rw [← Except.ok.inj h]
    norm_num [PyFloat.Bounded]
  precisionScore_labels yTrue yPred score h x hx := by
    change (if _ then _ else _) = _ at h
    split_ifs at h with hall
    exact absurd (List.all_eq_true.mp hall _ hx) Bool.false_ne_true

theorem writesNumbers_quarterRepr : WritesNumbers quarterRepr := by
  intro value
  unfold quarterRepr
  split_ifs <;> decide

/-- The training that the scores are of, in one period and one regime. -/
def evenCall : TrainingCall :=
  let call := baselineCall "v1" 2
  { call with
    metricsByPeriod := [{ groupKey := "2026-01", metrics := call.validationMetrics }]
    metricsByRegime := [{ groupKey := "up", metrics := call.validationMetrics }] }

theorem fits_baselineCall : (baselineCall "v1" 0).Fits where
  modelName := ⟨"quant_baseline", varchar_of_fits (by decide) (by decide)⟩
  modelVersion := ⟨"v1", varchar_of_fits (by decide) (by decide)⟩
  featureSchemaVersion := by decide
  featureNames := by decide
  labelVersion := by decide
  regularizationC := trivial
  artifactPath := by decide

/-- Whether the run can be started does not depend on the metrics. -/
theorem startable_baseline (validationMetrics : ClassificationMetrics)
    (metricsByPeriod metricsByRegime : List GroupedMetrics) (sampleCount : Nat) :
    TrainingCall.Startable ModelRuns.empty
      { baselineCall "v1" sampleCount with
        validationMetrics, metricsByPeriod, metricsByRegime } := by
  obtain ⟨hname, hversion, hschema, hfeatures, hlabel, hfinite, hpath⟩ := fits_baselineCall
  refine ⟨by decide, fun _ => ⟨⟨"baseline", varchar_of_fits (by decide) (by decide), rfl⟩, ?_⟩⟩
  exact ⟨hname, hversion, hschema, hfeatures, hlabel, hfinite, hpath⟩

theorem even_evaluation_stored : evenCall.StoresMetrics quarterRepr ModelRuns.empty := by
  refine (evaluation_stored_iff exactNumpy_documented evenSklearn_documented
    writesNumbers_quarterRepr ModelRuns.empty evenCall (dailySamples 1 [1, 2])
    (dailySamples 1 [1, 2]) [.int 0, .int 1] [.finite (1 / 2), .finite (1 / 2)]
    (fun _ => "2026-01") (fun _ => "up") (.finite (1 / 2)) (by decide +kernel)
    (by decide +kernel) (by decide +kernel)).mpr ?_
  exact ⟨startable_baseline _ _ _ 2, by simp, fun _ _ => by decide, fun _ _ => by decide⟩

/-- The training with nothing to validate it on. -/
def emptyCall : TrainingCall :=
  { baselineCall "v1" 0 with
    validationMetrics :=
      { auc := none, prAuc := none, precision := none, «recall» := none, brierScore := .nan
        expectedCalibrationError := .nan, positiveRate := .nan, sampleCount := 0 } }

theorem empty_evaluation_refused :
    computeClassificationMetrics exactNumpy evenSklearn [] [] (.finite (1 / 2)) =
        .ok emptyCall.validationMetrics ∧
      emptyCall.Startable ModelRuns.empty ∧
      ¬ emptyCall.StoresMetrics quarterRepr ModelRuns.empty := by
  refine ⟨rfl, startable_baseline _ _ _ 0, fun hstores => ?_⟩
  have haccepts := ((TrainingCall.storesMetrics_iff writesNumbers_quarterRepr).mp hstores).2
  revert haccepts
  decide +kernel

end Models
end QuantPlatform
