/-
Classification metrics of predicted probabilities, over all samples and by group.

numpy and scikit-learn are parameters, and of what they return only the documented range
is used.  Without samples there is nothing to average and three of the metrics are NaN.
With samples every metric is a finite number: a bin of the calibration error adds at most
twice what a mean can be, and there are few bins.
-/
import QuantPlatform.Models.Dataset
import QuantPlatform.Python.Floats

namespace QuantPlatform
namespace Models

open PyFloat Raise

/-- An element of an array of integer or of float labels. -/
inductive Label
  | int (n : Int64)
  | float (x : PyFloat)
  deriving DecidableEq

def Label.toFloat : Label → PyFloat
  | int n => ofInt n.toInt
  | float x => x

/-- `a == b`, false of NaN. -/
def Label.same (a b : Label) : Bool :=
  match a, b with
  | .int m, .int n => decide (m = n)
  | .int m, .float (.finite x) => decide ((m.toInt : ℚ) = x)
  | .float (.finite x), .int n => decide (x = n.toInt)
  | .float x, .float y => PyFloat.le x y && PyFloat.le y x
  | _, _ => false

/-- `len(set(labels)) > 1`. -/
def hasTwoClasses : List Label → Bool
  | [] => false
  | label :: rest => rest.any (fun other => !label.same other) || hasTwoClasses rest

/-- `xs.mean()`, and the element `i` of `np.linspace(0.0, 1.0, n_bins + 1)`. -/
structure Numpy where
  mean : List PyFloat → PyFloat
  linspace : Nat → Nat → PyFloat

/-- A mean of numbers of a magnitude is, but for rounding, of that magnitude, and the edges
of the bins lie between the two ends. -/
structure Numpy.Documented (np : Numpy) : Prop where
  mean_bounded : ∀ xs, xs ≠ [] → (∀ x ∈ xs, Bounded (2 ^ 63) x) → Bounded (2 ^ 64) (np.mean xs)
  linspace_bounded : ∀ nBins i, i ≤ nBins → Bounded (2 ^ 0) (np.linspace nBins i)

/-- The scores; precision and recall with `zero_division=0`. -/
structure Sklearn where
  rocAucScore : List Label → List PyFloat → Except Exn PyFloat
  averagePrecisionScore : List Label → List PyFloat → Except Exn PyFloat
  precisionScore : List Label → List Int → Except Exn PyFloat
  recallScore : List Label → List Int → Except Exn PyFloat
  brierScoreLoss : List Label → List PyFloat → Except Exn PyFloat

/-- A score is between zero and one, the area under the curve where there are two classes.
Labels that are no whole numbers of 64 bits are continuous, and refused. -/
structure Sklearn.Documented (sk : Sklearn) : Prop where
  rocAucScore_bounded : ∀ yTrue yProb score, hasTwoClasses yTrue = true →
    sk.rocAucScore yTrue yProb = .ok score → Bounded (2 ^ 0) score
  averagePrecisionScore_bounded : ∀ yTrue yProb score,
    sk.averagePrecisionScore yTrue yProb = .ok score → Bounded (2 ^ 0) score
  precisionScore_bounded : ∀ yTrue yPred score,
    sk.precisionScore yTrue yPred = .ok score → Bounded (2 ^ 0) score
  recallScore_bounded : ∀ yTrue yPred score,
    sk.recallScore yTrue yPred = .ok score → Bounded (2 ^ 0) score
  brierScoreLoss_bounded : ∀ yTrue yProb score,
    sk.brierScoreLoss yTrue yProb = .ok score → Bounded (2 ^ 0) score
  precisionScore_labels : ∀ yTrue yPred score, sk.precisionScore yTrue yPred = .ok score →
    ∀ x, Label.float x ∈ yTrue → Bounded (2 ^ 63) x

structure ClassificationMetrics where
  auc : Option PyFloat
  prAuc : Option PyFloat
  precision : Option PyFloat
  «recall» : Option PyFloat
  brierScore : PyFloat
  expectedCalibrationError : PyFloat
  positiveRate : PyFloat
  sampleCount : Nat
  deriving DecidableEq, Repr

/-- `xs[mask]`. -/
def masked {α : Type} (xs : List α) (mask : List Bool) : Except Exn (List α) :=
  if xs.length = mask.length then .ok (((xs.zip mask).filter Prod.snd).map Prod.fst)
  else .error (.other "IndexError")

section Compute

variable (np : Numpy) (sk : Sklearn) (yTrue : List Label) (yProb : List PyFloat)

/-- The last bin is closed. -/
def inBin (nBins i : Nat) (p : PyFloat) : Bool :=
  let lo := np.linspace nBins i
  let hi := np.linspace nBins (i + 1)
  if i + 1 = nBins then PyFloat.le lo p && PyFloat.le p hi
  else PyFloat.le lo p && PyFloat.lt p hi

/-- The weighted gap between confidence and accuracy in a bin. -/
def binGap (mask : List Bool) : Except Exn PyFloat := do
  let confidences ← masked yProb mask
  let labels ← masked yTrue mask
  let binConfidence := np.mean confidences
  let binAccuracy := np.mean (labels.map Label.toFloat)
  return mul (ratio (mask.count true) yTrue.length) (abs (sub binConfidence binAccuracy))

def addBin (nBins : Nat) (error : PyFloat) (i : Nat) : Except Exn PyFloat := do
  let mask := yProb.map (inBin np nBins i)
  if mask.any id then
    let gap ← binGap np yTrue yProb mask
    return add error gap
  else return error

def expectedCalibrationError (nBins : Nat) : Except Exn PyFloat :=
  if yTrue = [] then .ok nan
  else (List.range nBins).foldlM (addBin np yTrue yProb nBins) (ofInt 0)

/-- `auc` and `pr_auc`, which one class alone has not. -/
def curveScores : Except Exn (Option PyFloat × Option PyFloat) :=
  if hasTwoClasses yTrue then do
    let auc ← sk.rocAucScore yTrue yProb
    let prAuc ← sk.averagePrecisionScore yTrue yProb
    return (some auc, some prAuc)
  else return (none, none)

def computeClassificationMetrics (decisionThreshold : PyFloat) :
    Except Exn ClassificationMetrics := do
  if yTrue = [] then
    return {
      auc := none, prAuc := none, precision := none, «recall» := none
      brierScore := nan, expectedCalibrationError := nan, positiveRate := nan, sampleCount := 0 }
  let positiveRate := np.mean (yTrue.map Label.toFloat)
  let yPred := yProb.map fun p => if PyFloat.le decisionThreshold p then (1 : Int) else 0
  let (auc, prAuc) ← curveScores sk yTrue yProb
  let precision ← sk.precisionScore yTrue yPred
  let recallScore ← sk.recallScore yTrue yPred
  let brier ← sk.brierScoreLoss yTrue yProb
  let ece ← expectedCalibrationError np yTrue yProb 10
  return {
    auc, prAuc, precision := some precision, «recall» := some recallScore, brierScore := brier
    expectedCalibrationError := ece, positiveRate, sampleCount := yTrue.length }

end Compute

/-! ## Every metric is a number -/

theorem toFloat_bounded {sk : Sklearn} (hsk : sk.Documented) {yTrue : List Label}
    {yPred : List Int} {score : PyFloat} (h : sk.precisionScore yTrue yPred = .ok score)
    {label : Label} (hlabel : label ∈ yTrue) : Bounded (2 ^ 63) label.toFloat := by
  cases label with
  | int n =>
    refine ofRat_bounded (by norm_num) ?_
    have hlow : -2 ^ 63 ≤ n.toInt := Int64.le_toInt n
    have hhigh : n.toInt < 2 ^ 63 := Int64.toInt_lt n
    rw [abs_le]
    constructor
    · exact_mod_cast hlow
    · exact_mod_cast hhigh.le
  | float x => exact hsk.precisionScore_labels yTrue yPred score h x hlabel

section Masked

variable {α : Type} {xs ys : List α} {mask : List Bool}

theorem masked_eq_ok (h : masked xs mask = .ok ys) :
    xs.length = mask.length ∧ ys = ((xs.zip mask).filter Prod.snd).map Prod.fst := by
  unfold masked at h
  split_ifs at h with hlength
  exact ⟨hlength, (Except.ok.inj h).symm⟩

theorem zip_of_mem_masked (h : masked xs mask = .ok ys) {y : α} (hy : y ∈ ys) :
    (y, true) ∈ xs.zip mask := by
  rw [(masked_eq_ok h).2] at hy
  obtain ⟨⟨x, b⟩, hpair, rfl⟩ := List.mem_map.mp hy
  obtain ⟨hmem, hb⟩ := List.mem_filter.mp hpair
  change b = true at hb
  rwa [hb] at hmem

/-- A mask that selects something selects it from an array of its length. -/
theorem masked_ne_nil (h : masked xs mask = .ok ys) (hany : mask.any id = true) : ys ≠ [] := by
  obtain ⟨hlength, hys⟩ := masked_eq_ok h
  obtain ⟨b, hb, htrue⟩ := List.any_eq_true.mp hany
  change b = true at htrue
  rw [← List.map_snd_zip hlength.ge] at hb
  obtain ⟨⟨x, b'⟩, hpair, rfl⟩ := List.mem_map.mp hb
  have hx : x ∈ ys := by
    rw [hys]
    exact List.mem_map.mpr ⟨(x, b'), List.mem_filter.mpr ⟨hpair, htrue⟩, rfl⟩
  exact List.ne_nil_of_mem hx

/-- The elements that a mask computed from the array selects are those it holds of. -/
theorem of_mem_masked_map {f : α → Bool} (h : masked xs (xs.map f) = .ok ys) {y : α}
    (hy : y ∈ ys) : f y = true := by
  have hmem := zip_of_mem_masked h hy
  rw [← List.map_prod_left_eq_zip] at hmem
  obtain ⟨x, _, heq⟩ := List.mem_map.mp hmem
  rw [Prod.mk.injEq] at heq
  rw [← heq.1]
  exact heq.2

end Masked

section Bounds

variable {np : Numpy} (hnp : np.Documented) {yTrue : List Label} {yProb : List PyFloat}

include hnp

theorem bounded_of_inBin {nBins i : Nat} (hi : i < nBins) {p : PyFloat}
    (h : inBin np nBins i p = true) : Bounded (2 ^ 0) p := by
  have hlow := hnp.linspace_bounded nBins i hi.le
  have hhigh := hnp.linspace_bounded nBins (i + 1) hi
  unfold inBin at h
  dsimp only at h
  split_ifs at h with hlast
  · rw [Bool.and_eq_true] at h
    exact bounded_of_le hlow hhigh h.1 h.2
  · rw [Bool.and_eq_true] at h
    exact bounded_of_le hlow hhigh h.1 (PyFloat.le_of_lt h.2)

theorem binGap_bounded (hlabels : ∀ label ∈ yTrue, Bounded (2 ^ 63) label.toFloat)
    {nBins i : Nat} (hi : i < nBins) {gap : PyFloat}
    (hany : (yProb.map (inBin np nBins i)).any id = true)
    (h : binGap np yTrue yProb (yProb.map (inBin np nBins i)) = .ok gap) :
    Bounded (2 ^ 65) gap := by
  obtain ⟨confidences, hconfidences, h⟩ := bind_eq_ok_iff.mp h
  obtain ⟨labels, hselected, h⟩ := bind_eq_ok_iff.mp h
  have hmean : Bounded (2 ^ 64) (np.mean confidences) := by
    refine hnp.mean_bounded _ (masked_ne_nil hconfidences hany) fun p hp => ?_
    exact (bounded_of_inBin hnp hi (of_mem_masked_map hconfidences hp)).mono (by norm_num)
  have hmean' : Bounded (2 ^ 64) (np.mean (labels.map Label.toFloat)) := by
    refine hnp.mean_bounded _ ?_ fun x hx => ?_
    · exact fun hnil => masked_ne_nil hselected hany (List.map_eq_nil_iff.mp hnil)
    · obtain ⟨label, hlabel, rfl⟩ := List.mem_map.mp hx
      exact hlabels label (List.of_mem_zip (zip_of_mem_masked hselected hlabel)).1
  have hcount : (yProb.map (inBin np nBins i)).count true ≤ yTrue.length := by
    rw [(masked_eq_ok hselected).1]
    exact List.count_le_length
  rw [← Except.ok.inj h]
  exact mul_bounded (ratio_bounded hcount)
    (abs_bounded (sub_bounded hmean hmean' (by norm_num))) (by norm_num)

/-- After `n` bins the error is at most `2 ^ (65 + n)`. -/
theorem foldlM_addBin_bounded (hlabels : ∀ label ∈ yTrue, Bounded (2 ^ 63) label.toFloat)
    {nBins : Nat} (hbins : nBins ≤ 900) {n : Nat} (hn : n ≤ nBins) {error : PyFloat}
    (h : (List.range n).foldlM (addBin np yTrue yProb nBins) (ofInt 0) = .ok error) :
    Bounded (2 ^ (65 + n)) error := by
  induction n generalizing error with
  | zero =>
    rw [← Except.ok.inj h]
    exact ofRat_bounded (by norm_num) (by norm_num)
  | succ n ih =>
    rw [List.range_succ, List.foldlM_append] at h
    obtain ⟨before, hbefore, hstep⟩ := bind_eq_ok_iff.mp h
    have hbound := ih (by omega) hbefore
    rw [List.foldlM_cons] at hstep
    obtain ⟨after, hafter, hend⟩ := bind_eq_ok_iff.mp hstep
    rw [← Except.ok.inj hend]
    unfold addBin at hafter
    dsimp only at hafter
    split_ifs at hafter with hany
    · obtain ⟨gap, hgap, hsum⟩ := bind_eq_ok_iff.mp hafter
      have hgap' := binGap_bounded hnp hlabels (by omega) hany hgap
      have hle : (2 : ℚ) ^ 65 ≤ 2 ^ (65 + n) := pow_le_pow_right₀ (by norm_num) (by omega)
      have hfits : 65 + n + 1 ≤ 1023 := by omega
      rw [← Except.ok.inj hsum]
      exact add_bounded hbound (hgap'.mono hle) hfits
    · have hle : (2 : ℚ) ^ (65 + n) ≤ 2 ^ (65 + (n + 1)) :=
        pow_le_pow_right₀ (by norm_num) (by omega)
      rw [← Except.ok.inj hafter]
      exact hbound.mono hle

end Bounds

namespace ClassificationMetrics

/-- The metrics that are there, the count apart. -/
def floats (metrics : ClassificationMetrics) : List PyFloat :=
  metrics.auc.toList ++ metrics.prAuc.toList ++ metrics.precision.toList ++
    metrics.«recall».toList ++
    [metrics.brierScore, metrics.expectedCalibrationError, metrics.positiveRate]

end ClassificationMetrics

section Finite

variable {np : Numpy} {sk : Sklearn} (hnp : np.Documented) (hsk : sk.Documented)
  {yTrue : List Label} {yProb : List PyFloat} {decisionThreshold : PyFloat}
  {metrics : ClassificationMetrics}

theorem computed_of_nil
    (h : computeClassificationMetrics np sk [] yProb decisionThreshold = .ok metrics) :
    nan ∈ metrics.floats := by
  rw [← Except.ok.inj h]
  simp [ClassificationMetrics.floats]

include hsk

theorem curveScores_finite {auc prAuc : Option PyFloat}
    (h : curveScores sk yTrue yProb = .ok (auc, prAuc)) :
    ∀ x, x ∈ auc ∨ x ∈ prAuc → x.IsFinite := by
  unfold curveScores at h
  split_ifs at h with htwo
  · obtain ⟨area, harea, h⟩ := bind_eq_ok_iff.mp h
    obtain ⟨average, haverage, h⟩ := bind_eq_ok_iff.mp h
    obtain ⟨rfl, rfl⟩ := Prod.mk.inj (Except.ok.inj h)
    rintro x (hx | hx)
    · rw [← Option.some.inj hx]
      exact (hsk.rocAucScore_bounded _ _ _ htwo harea).isFinite
    · rw [← Option.some.inj hx]
      exact (hsk.averagePrecisionScore_bounded _ _ _ haverage).isFinite
  · obtain ⟨rfl, rfl⟩ := Prod.mk.inj (Except.ok.inj h)
    rintro x (hx | hx) <;> cases hx

include hnp

theorem computed_of_ne_nil (hne : yTrue ≠ [])
    (h : computeClassificationMetrics np sk yTrue yProb decisionThreshold = .ok metrics) :
    ∀ x ∈ metrics.floats, x.IsFinite := by
  unfold computeClassificationMetrics at h
  rw [if_neg hne] at h
  obtain ⟨⟨auc, prAuc⟩, hcurve, h⟩ := bind_eq_ok_iff.mp h
  obtain ⟨precision, hprecision, h⟩ := bind_eq_ok_iff.mp h
  obtain ⟨score, hrecall, h⟩ := bind_eq_ok_iff.mp h
  obtain ⟨brier, hbrier, h⟩ := bind_eq_ok_iff.mp h
  obtain ⟨ece, hece, h⟩ := bind_eq_ok_iff.mp h
  have hlabels : ∀ label ∈ yTrue, Bounded (2 ^ 63) label.toFloat :=
    fun label => toFloat_bounded hsk hprecision
  have hrate : (np.mean (yTrue.map Label.toFloat)).IsFinite := by
    refine (hnp.mean_bounded _ (mt List.map_eq_nil_iff.mp hne) fun x hx => ?_).isFinite
    obtain ⟨label, hlabel, rfl⟩ := List.mem_map.mp hx
    exact hlabels label hlabel
  have herror : ece.IsFinite := by
    rw [expectedCalibrationError, if_neg hne] at hece
    exact (foldlM_addBin_bounded hnp hlabels (by norm_num) le_rfl hece).isFinite
  have hcurves := curveScores_finite hsk hcurve
  have hprecision' := (hsk.precisionScore_bounded _ _ _ hprecision).isFinite
  have hrecall' := (hsk.recallScore_bounded _ _ _ hrecall).isFinite
  have hbrier' := (hsk.brierScoreLoss_bounded _ _ _ hbrier).isFinite
  rw [← Except.ok.inj h]
  intro x hx
  simp only [ClassificationMetrics.floats, List.mem_append, List.mem_cons, Option.mem_toList,
    List.not_mem_nil, or_false] at hx
  grind

/-- Of samples every metric is a finite number, and of none three are NaN. -/
theorem computed_finite_iff
    (h : computeClassificationMetrics np sk yTrue yProb decisionThreshold = .ok metrics) :
    (∀ x ∈ metrics.floats, x.IsFinite) ↔ yTrue ≠ [] := by
  constructor
  · rintro hfinite rfl
    exact hfinite nan (computed_of_nil h)
  · exact fun hne => computed_of_ne_nil hnp hsk hne h

end Finite

structure GroupedMetrics where
  groupKey : String
  metrics : ClassificationMetrics
  deriving DecidableEq, Repr

/-- `groups.setdefault(key, []).append(index)`. -/
def appendIndex (key : String) (index : Nat) :
    List (String × List Nat) → List (String × List Nat)
  | [] => [(key, [index])]
  | (other, indices) :: rest =>
      if other = key then (other, indices ++ [index]) :: rest
      else (other, indices) :: appendIndex key index rest

/-- `groups` after the loop. -/
def groupIndices {F : Type} (groupKeyFn : DatasetSample F → String)
    (samples : List (DatasetSample F)) : List (String × List Nat) :=
  samples.zipIdx.foldl (fun groups entry => appendIndex (groupKeyFn entry.1) entry.2 groups) []

/-- `xs[indices]`. -/
def taken {α : Type} (xs : List α) (indices : List Nat) : Except Exn (List α) :=
  indices.mapM fun index : Nat => item xs index

def computeMetricsByGroup {F : Type} (np : Numpy) (sk : Sklearn)
    (samples : List (DatasetSample F)) (yTrue : List Label) (yProb : List PyFloat)
    (groupKeyFn : DatasetSample F → String) (decisionThreshold : PyFloat) :
    Except Exn (List GroupedMetrics) :=
  ((groupIndices groupKeyFn samples).insertionSort fun a b => a.1 ≤ b.1).mapM fun group => do
    let labels ← taken yTrue group.2
    let probabilities ← taken yProb group.2
    let metrics ← computeClassificationMetrics np sk labels probabilities decisionThreshold
    return { groupKey := group.1, metrics }

theorem mem_keys_appendIndex {key other : String} {index : Nat}
    {groups : List (String × List Nat)} :
    other ∈ (appendIndex key index groups).map Prod.fst ↔
      other = key ∨ other ∈ groups.map Prod.fst := by
  induction groups with
  | nil => simp [appendIndex]
  | cons group rest ih =>
    rw [appendIndex]
    split_ifs with hkey
    · simp only [List.map_cons, List.mem_cons, ← hkey]
      tauto
    · simp only [List.map_cons, List.mem_cons, ih]
      tauto

theorem appendIndex_ne_nil {key : String} {index : Nat} {groups : List (String × List Nat)}
    (h : ∀ group ∈ groups, group.2 ≠ []) :
    ∀ group ∈ appendIndex key index groups, group.2 ≠ [] := by
  induction groups with
  | nil => simp [appendIndex]
  | cons first rest ih =>
    obtain ⟨hfirst, hrest⟩ := List.forall_mem_cons.mp h
    rw [appendIndex]
    split_ifs with hkey
    · exact List.forall_mem_cons.mpr ⟨by simp, hrest⟩
    · exact List.forall_mem_cons.mpr ⟨hfirst, ih hrest⟩

section Groups

variable {F : Type} {groupKeyFn : DatasetSample F → String}

theorem foldl_appendIndex (groupKeyFn : DatasetSample F → String)
    (entries : List (DatasetSample F × Nat)) {groups : List (String × List Nat)}
    (h : ∀ group ∈ groups, group.2 ≠ []) :
    (∀ group ∈ entries.foldl (fun groups entry =>
        appendIndex (groupKeyFn entry.1) entry.2 groups) groups, group.2 ≠ []) ∧
      ∀ key, key ∈ (entries.foldl (fun groups entry =>
          appendIndex (groupKeyFn entry.1) entry.2 groups) groups).map Prod.fst ↔
        key ∈ entries.map (fun entry => groupKeyFn entry.1) ∨ key ∈ groups.map Prod.fst := by
  induction entries generalizing groups with
  | nil => exact ⟨h, fun key => by simp⟩
  | cons entry rest ih =>
    obtain ⟨hne, hkeys⟩ := ih (appendIndex_ne_nil h)
    refine ⟨hne, fun key => ?_⟩
    rw [List.foldl_cons, hkeys, mem_keys_appendIndex, List.map_cons, List.mem_cons]
    tauto

/-- Each sample is in a group, and each group has a sample. -/
theorem groupIndices_spec (groupKeyFn : DatasetSample F → String)
    (samples : List (DatasetSample F)) :
    (∀ group ∈ groupIndices groupKeyFn samples, group.2 ≠ []) ∧
      ∀ key, key ∈ (groupIndices groupKeyFn samples).map Prod.fst ↔
        key ∈ samples.map groupKeyFn := by
  obtain ⟨hne, hkeys⟩ := foldl_appendIndex groupKeyFn samples.zipIdx (List.forall_mem_nil _)
  refine ⟨hne, fun key => (hkeys key).trans ?_⟩
  have hsamples : samples.zipIdx.map (fun entry => groupKeyFn entry.1) =
      samples.map groupKeyFn := by
    have hmap : (samples.zipIdx.map Prod.fst).map groupKeyFn = samples.map groupKeyFn := by
      rw [List.zipIdx_map_fst]
    rwa [List.map_map] at hmap
  rw [hsamples]
  simp

theorem taken_ne_nil {α : Type} {xs ys : List α} {indices : List Nat} (hne : indices ≠ [])
    (h : taken xs indices = .ok ys) : ys ≠ [] := by
  have hlength := (mapM_eq_ok_iff.mp h).length_eq
  rintro rfl
  exact hne (List.length_eq_zero_iff.mp hlength)

variable {groupKeyFn : DatasetSample F → String} {np : Numpy} {sk : Sklearn}
  {samples : List (DatasetSample F)} {yTrue : List Label} {yProb : List PyFloat}
  {decisionThreshold : PyFloat} {grouped : List GroupedMetrics}

/-- Every group is of some of the samples, and its metrics are computed from their labels and
probabilities. -/
theorem of_mem_computeMetricsByGroup
    (h : computeMetricsByGroup np sk samples yTrue yProb groupKeyFn decisionThreshold =
      .ok grouped) {g : GroupedMetrics} (hg : g ∈ grouped) :
    g.groupKey ∈ samples.map groupKeyFn ∧ ∃ labels probabilities, labels ≠ [] ∧
      computeClassificationMetrics np sk labels probabilities decisionThreshold =
        .ok g.metrics := by
  obtain ⟨hne, hkeys⟩ := groupIndices_spec groupKeyFn samples
  obtain ⟨group, hgroup, _, hcomputed, rfl⟩ :=
    (exists_mem_iff_of_mapM h (· = g)).mp ⟨g, hg, rfl⟩
  rw [List.mem_insertionSort] at hgroup
  obtain ⟨labels, hlabels, hcomputed⟩ := bind_eq_ok_iff.mp hcomputed
  obtain ⟨probabilities, _, hcomputed⟩ := bind_eq_ok_iff.mp hcomputed
  obtain ⟨metrics, hmetrics, hcomputed⟩ := bind_eq_ok_iff.mp hcomputed
  rw [← Except.ok.inj hcomputed]
  exact ⟨(hkeys group.1).mp (List.mem_map_of_mem hgroup), labels, probabilities,
    taken_ne_nil (hne group hgroup) hlabels, hmetrics⟩

theorem exists_group_of_mem
    (h : computeMetricsByGroup np sk samples yTrue yProb groupKeyFn decisionThreshold =
      .ok grouped) {sample : DatasetSample F} (hsample : sample ∈ samples) :
    ∃ g ∈ grouped, g.groupKey = groupKeyFn sample := by
  obtain ⟨_, hkeys⟩ := groupIndices_spec groupKeyFn samples
  obtain ⟨group, hgroup, hkey⟩ :=
    List.mem_map.mp ((hkeys (groupKeyFn sample)).mpr (List.mem_map_of_mem hsample))
  have hsorted := (List.mem_insertionSort fun a b : String × List Nat => a.1 ≤ b.1).mpr hgroup
  obtain ⟨g, hg⟩ := exists_mapM_eq_ok_iff.mp ⟨_, h⟩ group hsorted
  refine (exists_mem_iff_of_mapM h _).mpr ⟨group, hsorted, g, hg, ?_⟩
  obtain ⟨labels, _, hg⟩ := bind_eq_ok_iff.mp hg
  obtain ⟨probabilities, _, hg⟩ := bind_eq_ok_iff.mp hg
  obtain ⟨metrics, _, hg⟩ := bind_eq_ok_iff.mp hg
  rw [← Except.ok.inj hg]
  exact hkey

end Groups

end Models
end QuantPlatform
