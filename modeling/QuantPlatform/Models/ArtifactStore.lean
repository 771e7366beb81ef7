/-
The baseline model from its training to its reloading.

A model is what scikit-learn fits to the samples before the split; the samples after it
decide nothing but where the split is.  The fitted estimator, not the model, is what joblib
writes under `<run_id>.joblib`, and a reloaded model is one around it with whatever
configuration the caller gives.

Saving makes the directory before it asks for the estimator, so an unfitted model leaves a
directory and no file.  What scikit-learn fits and joblib writes are parameters.
-/
import QuantPlatform.Models.Artifact
import QuantPlatform.Models.Training
import QuantPlatform.Research.Registry

namespace QuantPlatform
namespace Models

open QuantPlatform.Core Effects Files Raise Research

/-- `CalibratedClassifierCV` around a logistic regression, with `TimeSeriesSplit`:
fitting, and the second column of `predict_proba`. -/
structure CalibratedClassifier (F Estimator : Type) where
  fit : QuantModelConfig → List (List F) → List Int → Except Exn Estimator
  predictProba : Estimator → List (List F) → Except Raised (List F)

structure BaselineQuantModel (Estimator : Type) where
  config : QuantModelConfig
  estimator : Option Estimator

namespace BaselineQuantModel

variable {F Estimator : Type}

def new (config : QuantModelConfig) : BaselineQuantModel Estimator where
  config := config
  estimator := none

def fit (classifier : CalibratedClassifier F Estimator) (model : BaselineQuantModel Estimator)
    (features : List (List F)) (labels : List Int) :
    Except Exn (BaselineQuantModel Estimator) := do
  let estimator ← classifier.fit model.config features labels
  return { model with estimator := some estimator }

def predictProba (classifier : CalibratedClassifier F Estimator)
    (model : BaselineQuantModel Estimator) (features : List (List F)) :
    Except Raised (List F) :=
  match model.estimator with
  | none =>
      .error {
        cls := .other (.other "RuntimeError")
        text := "BaselineQuantModel.fit must be called before predict_proba" }
  | some estimator => classifier.predictProba estimator features

def fittedEstimator (model : BaselineQuantModel Estimator) : Except Raised Estimator :=
  match model.estimator with
  | none =>
      .error {
        cls := .other (.other "RuntimeError")
        text := "BaselineQuantModel.fit must be called first" }
  | some estimator => .ok estimator

def fromFittedEstimator (estimator : Estimator) (config : QuantModelConfig) :
    BaselineQuantModel Estimator where
  config := config
  estimator := some estimator

end BaselineQuantModel

/-! ## Training -/

section Training

variable {F Estimator : Type} [FloatArithmetic F]

omit [FloatArithmetic F] in
def samplesToArrays (samples : List (DatasetSample F)) : Except Exn (List (List F) × List Int) := do
  let features ← samples.mapM fun sample => sample.features.asOrderedList
  return (features, samples.map DatasetSample.label)

def trainBaselineModel (classifier : CalibratedClassifier F Estimator)
    (samples : List (DatasetSample F)) (config : QuantModelConfig) (validationFraction : F) :
    Except Exn (BaselineQuantModel Estimator × TrainValidationSplit F) := do
  let split ← timeOrderedSplit samples validationFraction
  let (trainFeatures, trainLabels) ← samplesToArrays split.trainSamples
  let model ← (BaselineQuantModel.new config).fit classifier trainFeatures trainLabels
  return (model, split)

/-- A training is a split and a fit to what comes before it. -/
theorem trainBaselineModel_eq_ok_iff {classifier : CalibratedClassifier F Estimator}
    {samples : List (DatasetSample F)} {config : QuantModelConfig} {validationFraction : F}
    {model : BaselineQuantModel Estimator} {split : TrainValidationSplit F} :
    trainBaselineModel classifier samples config validationFraction = .ok (model, split) ↔
      timeOrderedSplit samples validationFraction = .ok split ∧
        ∃ arrays, samplesToArrays split.trainSamples = .ok arrays ∧
          (BaselineQuantModel.new config).fit classifier arrays.1 arrays.2 = .ok model := by
  unfold trainBaselineModel
  constructor
  · intro h
    obtain ⟨split', hsplit, h⟩ := bind_eq_ok_iff.mp h
    obtain ⟨arrays, harrays, h⟩ := bind_eq_ok_iff.mp h
    obtain ⟨model', hmodel, h⟩ := bind_eq_ok_iff.mp h
    cases h
    exact ⟨hsplit, arrays, harrays, hmodel⟩
  · intro h
    obtain ⟨hsplit, arrays, harrays, hmodel⟩ := h
    exact bind_eq_ok_iff.mpr ⟨split, hsplit, bind_eq_ok_iff.mpr ⟨arrays, harrays,
      bind_eq_ok_iff.mpr ⟨model, hmodel, rfl⟩⟩⟩

omit [FloatArithmetic F] in
/-- Sorting looks at `as_of` only. -/
theorem sortedByAsOf_map {rewrite : DatasetSample F → DatasetSample F}
    (hasOf : ∀ s, (rewrite s).asOf = s.asOf) (samples : List (DatasetSample F)) :
    sortedByAsOf (samples.map rewrite) = (sortedByAsOf samples).map rewrite := by
  refine (List.map_insertionSort _ _ rewrite samples fun a _ b _ => ?_).symm
  rw [hasOf, hasOf]

/-- Where a split is returned, the fraction and the number of samples have been checked. -/
theorem guards_of_timeOrderedSplit {samples : List (DatasetSample F)} {validationFraction : F}
    {split : TrainValidationSplit F}
    (h : timeOrderedSplit samples validationFraction = .ok split) :
    validFraction validationFraction = true ∧ 2 ≤ samples.length := by
  unfold timeOrderedSplit at h
  by_cases hfraction : validFraction validationFraction = true
  · by_cases hfew : samples.length < 2
    · simp only [hfraction, Bool.not_true, Bool.false_eq_true, if_false, if_pos hfew] at h
      cases h
    · exact ⟨hfraction, Nat.not_lt.mp hfew⟩
  · rw [Bool.eq_false_of_not_eq_true hfraction] at h
    cases h

/-- And so does the split. -/
theorem timeOrderedSplit_map {rewrite : DatasetSample F → DatasetSample F}
    (hasOf : ∀ s, (rewrite s).asOf = s.asOf) {samples : List (DatasetSample F)}
    {validationFraction : F} {split : TrainValidationSplit F}
    (h : timeOrderedSplit samples validationFraction = .ok split) :
    timeOrderedSplit (samples.map rewrite) validationFraction =
      .ok {
        trainSamples := split.trainSamples.map rewrite
        validationSamples := split.validationSamples.map rewrite
        splitAsOf := split.splitAsOf } := by
  obtain ⟨hfraction, hlength⟩ := guards_of_timeOrderedSplit h
  obtain ⟨index, first, hindex, hfirst, rfl⟩ :=
    (timeOrderedSplit_eq_ok_iff hfraction hlength).mp h
  have hlength' : 2 ≤ (samples.map rewrite).length := by rwa [List.length_map]
  refine (timeOrderedSplit_eq_ok_iff hfraction hlength').mpr ⟨index, rewrite first, ?_, ?_, ?_⟩
  · rw [List.length_map]
    exact hindex
  · rw [sortedByAsOf_map hasOf, List.getElem?_map, hfirst]
    rfl
  · rw [sortedByAsOf_map hasOf, List.map_take, List.map_drop, hasOf]

/-- A model is trained on what comes before the split: the samples after it may say
anything, under the same `as_of`, and the model is the same. -/
theorem validation_never_trained_on (classifier : CalibratedClassifier F Estimator)
    {samples : List (DatasetSample F)} {config : QuantModelConfig} {validationFraction : F}
    {model : BaselineQuantModel Estimator} {split : TrainValidationSplit F}
    (h : trainBaselineModel classifier samples config validationFraction = .ok (model, split))
    {rewrite : DatasetSample F → DatasetSample F} (hasOf : ∀ s, (rewrite s).asOf = s.asOf)
    (htrain : ∀ s ∈ split.trainSamples, rewrite s = s) :
    trainBaselineModel classifier (samples.map rewrite) config validationFraction =
      .ok (model, { split with validationSamples := split.validationSamples.map rewrite }) := by
  obtain ⟨hsplit, arrays, harrays, hmodel⟩ := trainBaselineModel_eq_ok_iff.mp h
  have hsame : split.trainSamples.map rewrite = split.trainSamples :=
    (List.map_congr_left htrain).trans (List.map_id _)
  have hsplit' := timeOrderedSplit_map hasOf hsplit
  rw [hsame] at hsplit'
  exact trainBaselineModel_eq_ok_iff.mpr ⟨hsplit', arrays, harrays, hmodel⟩

/-- A classifier that finds nothing in the features: it predicts the share of ones. -/
def shareOfOnes : CalibratedClassifier ℚ ℚ where
  fit _ _ labels := .ok (labels.sum / labels.length)
  predictProba share features := .ok (features.map fun _ => share)

/-- A sample of every day given, with the same features. -/
def flatSamples (label : Instant → Int) (days : List Instant) : List (DatasetSample ℚ) :=
  days.map fun asOf =>
    { instrumentId := 1, symbol := "005930", asOf
      features := {
        schemaVersion := featureSchemaVersion
        values := featureNames.map fun name => (name, 0) }
      label := label asOf, forwardReturn := Decimal.ofInt (label asOf) }

def baselineConfig : QuantModelConfig where
  regularizationC := PyFloat.ofRat 1
  calibrationMethod := .sigmoid
  calibrationSplits := 2
  randomState := 7

/-- The days of the samples: six to train on, which two splits of a time series
find both labels in, and six to validate against. -/
def trainedDays : List Instant := [1, 2, 3, 4, 5, 6]

def validatedDays : List Instant := [7, 8, 9, 10, 11, 12]

/-- The labels of the days that are validated against do not matter. -/
theorem later_labels_do_not_matter :
    trainBaselineModel shareOfOnes
        (flatSamples (fun day => day % 2) (trainedDays ++ validatedDays)) baselineConfig (1 / 2) =
      .ok ({ config := baselineConfig, estimator := some (1 / 2) },
        { trainSamples := flatSamples (fun day => day % 2) trainedDays
          validationSamples := flatSamples (fun day => day % 2) validatedDays
          splitAsOf := 7 }) ∧
      trainBaselineModel shareOfOnes
        ((flatSamples (fun day => day % 2) (trainedDays ++ validatedDays)).map fun s =>
          if s.asOf ≤ 6 then s else { s with label := 0 }) baselineConfig (1 / 2) =
      .ok ({ config := baselineConfig, estimator := some (1 / 2) },
        { trainSamples := flatSamples (fun day => day % 2) trainedDays
          validationSamples := (flatSamples (fun day => day % 2) validatedDays).map fun s =>
            if s.asOf ≤ 6 then s else { s with label := 0 }
          splitAsOf := 7 }) := by
  have htrained : trainBaselineModel shareOfOnes
      (flatSamples (fun day => day % 2) (trainedDays ++ validatedDays)) baselineConfig (1 / 2) =
        .ok ({ config := baselineConfig, estimator := some (1 / 2) },
          { trainSamples := flatSamples (fun day => day % 2) trainedDays
            validationSamples := flatSamples (fun day => day % 2) validatedDays
            splitAsOf := 7 }) := by
    have hshare : ((([1, 0, 1, 0, 1, 0] : List Int).sum : Int) : ℚ) /
        (([1, 0, 1, 0, 1, 0] : List Int).length : ℚ) = 1 / 2 := by decide +kernel
    refine trainBaselineModel_eq_ok_iff.mpr ⟨?_, _, rfl, ?_⟩
    · exact (timeOrderedSplit_eq_ok_iff (by decide +kernel) (by decide)).mpr
        ⟨6, _, by decide +kernel, rfl, rfl⟩
    · exact congrArg (fun share : ℚ => Except.ok
        (BaselineQuantModel.fromFittedEstimator share baselineConfig)) hshare
  refine ⟨htrained, validation_never_trained_on shareOfOnes htrained (fun s => ?_) ?_⟩
  · split
    · rfl
    · rfl
  · decide

end Training

/-! ## Artifacts -/

section Artifacts

/-- `joblib.dump` and `joblib.load`. -/
structure Joblib (Estimator Content : Type) where
  dump : Estimator → Content
  load : Content → Except Raised Estimator

/-- What has been dumped is loaded. -/
def Joblib.RoundTrips {Estimator Content : Type} (joblib : Joblib Estimator Content) : Prop :=
  ∀ estimator, joblib.load (joblib.dump estimator) = .ok estimator

variable {F Estimator Content : Type}

/-- `{run_id}.joblib`. -/
def artifactName (runId : Int) : String := runId.repr ++ ".joblib"

/-- `artifact_dir.mkdir(parents=True, exist_ok=True)`. -/
def makeArtifactDir (artifactDir : List String) : Program (FileTree Content) Raised Unit :=
  fun tree =>
    ((makeDirectory tree artifactDir).2.mapError (osError artifactDir),
      (makeDirectory tree artifactDir).1)

/-- `joblib.dump(estimator, path)`. -/
def dumpTo (joblib : Joblib Estimator Content) (estimator : Estimator) (path : List String) :
    Program (FileTree Content) Raised Unit := fun tree =>
  match writeFile tree path (joblib.dump estimator) with
  | .ok written => (.ok (), written)
  | .error failure => (.error (osError path failure), tree)

def saveArtifact (joblib : Joblib Estimator Content) (model : BaselineQuantModel Estimator)
    (artifactDir : List String) (runId : Int) :
    Program (FileTree Content) Raised (List String) := do
  makeArtifactDir artifactDir
  let path := artifactDir ++ [artifactName runId]
  let estimator ← Program.lift model.fittedEstimator
  dumpTo joblib estimator path
  return path

def loadArtifact (joblib : Joblib Estimator Content) (tree : FileTree Content)
    (path : List String) (config : QuantModelConfig) :
    Except Raised (BaselineQuantModel Estimator) := do
  let content ← (readFile tree path).mapError (osError path)
  let estimator ← joblib.load content
  return BaselineQuantModel.fromFittedEstimator estimator config

/-- The arguments of `save_artifact`. -/
structure SaveCall (Estimator : Type) where
  model : BaselineQuantModel Estimator
  artifactDir : List String
  runId : Int

/-- The tree after saves, refused ones among them. -/
def afterSaves (joblib : Joblib Estimator Content) (tree : FileTree Content)
    (calls : List (SaveCall Estimator)) : FileTree Content :=
  calls.foldl (fun tree call =>
    (saveArtifact joblib call.model call.artifactDir call.runId tree).2) tree

theorem natRepr_injective {m n : Nat} (h : m.repr = n.repr) : m = n := by
  have hdigits := congrArg String.toList h
  rw [Nat.toList_repr, Nat.toList_repr] at hdigits
  rw [← Nat.ofDigitChars_ten_toDigits (n := m), hdigits, Nat.ofDigitChars_ten_toDigits]

theorem minus_not_mem_natRepr (n : Nat) : '-' ∉ n.repr.toList := by
  intro hmem
  rw [Nat.toList_repr] at hmem
  exact absurd (Nat.isDigit_of_mem_toDigits (by decide) (by decide) hmem) (by decide)

theorem append_left_cancel {start s t : String} (h : start ++ s = start ++ t) : s = t := by
  have htexts := congrArg String.toList h
  rw [String.toList_append, String.toList_append] at htexts
  exact String.toList_inj.mp (List.append_cancel_left htexts)

theorem intRepr_injective {a b : Int} (h : a.repr = b.repr) : a = b := by
  cases a with
  | ofNat m =>
    cases b with
    | ofNat n => exact congrArg Int.ofNat (natRepr_injective h)
    | negSucc n =>
      have hminus : '-' ∈ m.repr.toList := by
        have hrepr : m.repr = "-" ++ (n + 1).repr := h
        rw [hrepr, String.toList_append]
        exact List.mem_append_left _ (List.mem_singleton_self '-')
      exact absurd hminus (minus_not_mem_natRepr m)
  | negSucc m =>
    cases b with
    | ofNat n =>
      have hminus : '-' ∈ n.repr.toList := by
        have hrepr : n.repr = "-" ++ (m + 1).repr := h.symm
        rw [hrepr, String.toList_append]
        exact List.mem_append_left _ (List.mem_singleton_self '-')
      exact absurd hminus (minus_not_mem_natRepr n)
    | negSucc n =>
      have hrepr : "-" ++ (m + 1).repr = "-" ++ (n + 1).repr := h
      have hsucc : m + 1 = n + 1 := natRepr_injective (append_left_cancel hrepr)
      exact congrArg Int.negSucc (Nat.succ.inj hsucc)

theorem artifactName_injective {a b : Int} (h : artifactName a = artifactName b) : a = b := by
  have htexts := congrArg String.toList h
  rw [artifactName, artifactName, String.toList_append, String.toList_append] at htexts
  exact intRepr_injective (String.toList_inj.mp (List.append_cancel_right htexts))

theorem artifactName_ne_up (runId : Int) : artifactName runId ≠ ".." := by
  intro h
  have hlength := congrArg String.length h
  rw [artifactName, String.length_append] at hlength
  have hsuffix : ".joblib".length = 7 := rfl
  have hup : "..".length = 2 := rfl
  omega

/-! ## What a save does -/

theorem estimator_of_fittedEstimator {model : BaselineQuantModel Estimator}
    {estimator : Estimator} (h : model.fittedEstimator = .ok estimator) :
    model.estimator = some estimator := by
  unfold BaselineQuantModel.fittedEstimator at h
  cases hestimator : model.estimator with
  | none =>
    rw [hestimator] at h
    cases h
  | some fitted =>
    rw [hestimator] at h
    exact congrArg some (Except.ok.inj h)

/-- A save that is refused leaves the files as they were, and one that is not writes one. -/
theorem saveArtifact_cases (joblib : Joblib Estimator Content) (call : SaveCall Estimator)
    (tree : FileTree Content) :
    (∃ e tree', saveArtifact joblib call.model call.artifactDir call.runId tree =
        (.error e, tree') ∧ Keeps tree tree') ∨
      ∃ estimator made written, call.model.estimator = some estimator ∧ Keeps tree made ∧
        writeFile made (call.artifactDir ++ [artifactName call.runId])
          (joblib.dump estimator) = .ok written ∧
        saveArtifact joblib call.model call.artifactDir call.runId tree =
          (.ok (call.artifactDir ++ [artifactName call.runId]), written) := by
  have hmade := keeps_makeDirectory tree call.artifactDir
  cases hdir : (makeDirectory tree call.artifactDir).2 with
  | error failure =>
    have hrun : (makeArtifactDir call.artifactDir : Program (FileTree Content) Raised Unit) tree =
        (.error (osError call.artifactDir failure), (makeDirectory tree call.artifactDir).1) := by
      rw [makeArtifactDir, hdir]
      rfl
    exact Or.inl ⟨_, _, Program.bind_of_error hrun, hmade⟩
  | ok u =>
    have hrun : (makeArtifactDir call.artifactDir : Program (FileTree Content) Raised Unit) tree =
        (.ok u, (makeDirectory tree call.artifactDir).1) := by
      rw [makeArtifactDir, hdir]
      rfl
    cases hfitted : call.model.fittedEstimator with
    | error e =>
      have hlift : (Program.lift call.model.fittedEstimator :
          Program (FileTree Content) Raised Estimator) (makeDirectory tree call.artifactDir).1 =
            (.error e, (makeDirectory tree call.artifactDir).1) := by
        rw [hfitted]
        rfl
      exact Or.inl ⟨_, _, (Program.bind_of_ok hrun).trans (Program.bind_of_error hlift), hmade⟩
    | ok estimator =>
      have hlift : (Program.lift call.model.fittedEstimator :
          Program (FileTree Content) Raised Estimator) (makeDirectory tree call.artifactDir).1 =
            (.ok estimator, (makeDirectory tree call.artifactDir).1) := by
        rw [hfitted]
        rfl
      cases hwrite : writeFile (makeDirectory tree call.artifactDir).1
          (call.artifactDir ++ [artifactName call.runId]) (joblib.dump estimator) with
      | error failure =>
        have hdump : dumpTo joblib estimator (call.artifactDir ++ [artifactName call.runId])
            (makeDirectory tree call.artifactDir).1 =
              (.error (osError (call.artifactDir ++ [artifactName call.runId]) failure),
                (makeDirectory tree call.artifactDir).1) := by
          rw [dumpTo, hwrite]
        exact Or.inl ⟨_, _, (Program.bind_of_ok hrun).trans
          ((Program.bind_of_ok hlift).trans (Program.bind_of_error hdump)), hmade⟩
      | ok written =>
        have hdump : dumpTo joblib estimator (call.artifactDir ++ [artifactName call.runId])
            (makeDirectory tree call.artifactDir).1 = (.ok (), written) := by
          rw [dumpTo, hwrite]
        exact Or.inr ⟨estimator, _, written, estimator_of_fittedEstimator hfitted, hmade, hwrite,
          (Program.bind_of_ok hrun).trans
            ((Program.bind_of_ok hlift).trans (Program.bind_of_ok hdump))⟩

/-- The calls that cannot write under a run id: those of other runs, and of unfitted models. -/
def Spares (runId : Int) (call : SaveCall Estimator) : Prop :=
  call.runId ≠ runId ∨ call.model.estimator = none

theorem holds_saveArtifact {joblib : Joblib Estimator Content} {tree : FileTree Content}
    {dir : List String} {runId : Int} {content : Content}
    (h : Holds tree (dir ++ [artifactName runId]) content) {call : SaveCall Estimator}
    (hspares : Spares runId call) :
    Holds (saveArtifact joblib call.model call.artifactDir call.runId tree).2
      (dir ++ [artifactName runId]) content := by
  rcases saveArtifact_cases joblib call tree with hrefused | hwritten
  · obtain ⟨e, tree', hrun, hkeeps⟩ := hrefused
    rw [hrun]
    exact h.keeps hkeeps
  · obtain ⟨estimator, made, written, hestimator, hkeeps, hwrite, hrun⟩ := hwritten
    rcases hspares with hother | hunfitted
    · rw [hrun]
      have hname : artifactName runId ≠ artifactName call.runId := fun he =>
        hother (artifactName_injective he).symm
      exact (h.keeps hkeeps).writeFile_of_ne hwrite (artifactName_ne_up runId)
        (artifactName_ne_up call.runId) hname
    · rw [hunfitted] at hestimator
      cases hestimator

theorem holds_afterSaves (joblib : Joblib Estimator Content) {tree : FileTree Content}
    {dir : List String} {runId : Int} {content : Content}
    (h : Holds tree (dir ++ [artifactName runId]) content) {calls : List (SaveCall Estimator)}
    (hspares : ∀ call ∈ calls, Spares runId call) :
    Holds (afterSaves joblib tree calls) (dir ++ [artifactName runId]) content := by
  induction calls generalizing tree with
  | nil => exact h
  | cons call rest ih =>
    obtain ⟨hcall, hrest⟩ := List.forall_mem_cons.mp hspares
    exact ih (holds_saveArtifact h hcall) hrest

/-- A model that was saved is loaded again, from the path that the save returned: whatever
was in the tree, and whatever is saved later for other runs, into whatever directories, or
refused.  It has the configuration it is loaded with, and predicts what it predicted. -/
theorem artifact_read_back {joblib : Joblib Estimator Content} (hround : joblib.RoundTrips)
    (classifier : CalibratedClassifier F Estimator) {tree saved : FileTree Content}
    {call : SaveCall Estimator} {path : List String}
    (hsave : saveArtifact joblib call.model call.artifactDir call.runId tree =
      (.ok path, saved))
    {later : List (SaveCall Estimator)} (hlater : ∀ other ∈ later, Spares call.runId other)
    (config : QuantModelConfig) :
    ∃ loaded, loadArtifact joblib (afterSaves joblib saved later) path config = .ok loaded ∧
      loaded.config = config ∧ loaded.estimator = call.model.estimator ∧
      ∀ features, loaded.predictProba classifier features =
        call.model.predictProba classifier features := by
  rcases saveArtifact_cases joblib call tree with hrefused | hwritten
  · obtain ⟨e, tree', hrun, _⟩ := hrefused
    rw [hrun] at hsave
    cases hsave
  · obtain ⟨estimator, made, written, hestimator, _, hwrite, hrun⟩ := hwritten
    rw [hrun] at hsave
    cases hsave
    have hholds := holds_afterSaves joblib (holds_of_writeFile hwrite) hlater
    refine ⟨BaselineQuantModel.fromFittedEstimator estimator config, ?_, rfl,
      hestimator.symm, fun features => ?_⟩
    · rw [loadArtifact, hholds.readFile]
      exact bind_eq_ok_iff.mpr ⟨_, rfl, bind_eq_ok_iff.mpr ⟨_, hround estimator, rfl⟩⟩
    · rw [BaselineQuantModel.predictProba, BaselineQuantModel.predictProba, hestimator]
      rfl

/-- A later run in the directory, and an unfitted model under the same run id. -/
theorem saved_run_read_back :
    let joblib : Joblib ℚ ℚ := { dump := id, load := Except.ok }
    let fitted : ℚ → BaselineQuantModel ℚ := fun share =>
      { config := baselineConfig, estimator := some share }
    let call : SaveCall ℚ :=
      { model := fitted (1 / 2), artifactDir := ["srv", "artifacts"], runId := 7 }
    let later : List (SaveCall ℚ) :=
      [{ model := fitted (1 / 3), artifactDir := ["srv", "artifacts"], runId := 8 },
        { model := .new baselineConfig, artifactDir := ["srv"], runId := 7 }]
    ∃ loaded,
      loadArtifact joblib (afterSaves joblib
          (saveArtifact joblib call.model call.artifactDir call.runId
            Relational.Table.empty).2 later)
        ["srv", "artifacts", "7.joblib"] baselineConfig = .ok loaded ∧
      loaded.config = baselineConfig ∧ loaded.estimator = some (1 / 2) ∧
      ∀ features, loaded.predictProba shareOfOnes features =
        (fitted (1 / 2)).predictProba shareOfOnes features := by
  intro joblib fitted call later
  have hround : joblib.RoundTrips := fun _ => rfl
  have hname : artifactName 7 = "7.joblib" := by decide
  refine @artifact_read_back _ _ _ joblib hround shareOfOnes Relational.Table.empty _ call _
    (Prod.ext ?_ rfl) later ?_ baselineConfig
  · unfold saveArtifact
    rw [hname]
    rfl
  · intro other hother
    rcases List.mem_cons.mp hother with rfl | hother
    · exact Or.inl (by decide)
    · rw [List.mem_singleton.mp hother]
      exact Or.inr rfl

end Artifacts

end Models
end QuantPlatform
