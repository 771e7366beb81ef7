import QuantPlatform.Models.Evaluation
import QuantPlatform.Statistics.Groups
import Mathlib.Algebra.Order.Floor.Semifield
import Mathlib.Tactic.FieldSimp

namespace QuantPlatform
namespace Models

open Groups

/-- What the calibration error does with labels `L` and floats `F`. -/
structure BinArithmetic (L F : Type) where
  /-- `np.linspace(0.0, 1.0, n_bins + 1)[i]`. -/
  linspace : Nat → Nat → F
  le : F → F → Bool
  lt : F → F → Bool
  mean : List F → F
  ofLabel : L → F
  ratio : Nat → Nat → F
  add : F → F → F
  sub : F → F → F
  mul : F → F → F
  abs : F → F
  zero : F
  nan : F

section Generic

variable {L F : Type} (A : BinArithmetic L F) (yTrue : List L) (yProb : List F)

/-- The last bin is closed. -/
def inBinIn (nBins i : Nat) (p : F) : Bool :=
  let lo := A.linspace nBins i
  let hi := A.linspace nBins (i + 1)
  if i + 1 = nBins then A.le lo p && A.le p hi
  else A.le lo p && A.lt p hi

def binGapIn (mask : List Bool) : Except Exn F := do
  let confidences ← masked yProb mask
  let labels ← masked yTrue mask
  let binConfidence := A.mean confidences
  let binAccuracy := A.mean (labels.map A.ofLabel)
  return A.mul (A.ratio (mask.count true) yTrue.length) (A.abs (A.sub binConfidence binAccuracy))

def addBinIn (nBins : Nat) (error : F) (i : Nat) : Except Exn F := do
  let mask := yProb.map (inBinIn A nBins i)
  if mask.any id then
    let gap ← binGapIn A yTrue yProb mask
    return A.add error gap
  else return error

def expectedCalibrationErrorIn (nBins : Nat) : Except Exn F :=
  if yTrue = [] then .ok A.nan
  else (List.range nBins).foldlM (addBinIn A yTrue yProb nBins) A.zero

end Generic

def platformBins (np : Numpy) : BinArithmetic Label PyFloat where
  linspace := np.linspace
  le := PyFloat.le
  lt := PyFloat.lt
  mean := np.mean
  ofLabel := Label.toFloat
  ratio := PyFloat.ratio
  add := PyFloat.add
  sub := PyFloat.sub
  mul := PyFloat.mul
  abs := PyFloat.abs
  zero := PyFloat.ofInt 0
  nan := PyFloat.nan

theorem expectedCalibrationError_eq (np : Numpy) (yTrue : List Label) (yProb : List PyFloat)
    (nBins : Nat) :
    expectedCalibrationError np yTrue yProb nBins =
      expectedCalibrationErrorIn (platformBins np) yTrue yProb nBins := by
  unfold expectedCalibrationError expectedCalibrationErrorIn
  by_cases hnil : yTrue = []
  · rw [if_pos hnil, if_pos hnil]
    rfl
  · rw [if_neg hnil, if_neg hnil]
    rfl

/-! ## Exact rationals -/

def exactMean (xs : List ℚ) : ℚ := xs.sum / xs.length

/-- Labels and floats are rationals.  There is no NaN among them: it stands for a summary of
no samples. -/
def exactBins : BinArithmetic ℚ ℚ where
  linspace nBins i := i / nBins
  le x y := decide (x ≤ y)
  lt x y := decide (x < y)
  mean := exactMean
  ofLabel y := y
  ratio m n := m / n
  add x y := x + y
  sub x y := x - y
  mul x y := x * y
  abs x := |x|
  zero := 0
  nan := 0

/-- A label and a probability. -/
abbrev Sample := ℚ × ℚ

/-- By how much the probability is over the label. -/
def overconfidence (sample : Sample) : ℚ := sample.2 - sample.1

/-- What the calibration error says of samples: each is counted in its one bin. -/
structure SoundSummary (nBins : Nat) (yTrue yProb : List ℚ) : Prop where
  one_bin : ∀ p ∈ yProb, ∃! i, i < nBins ∧ inBinIn exactBins nBins i p = true
  by_bins : expectedCalibrationErrorIn exactBins yTrue yProb nBins =
    .ok ((∑ i ∈ Finset.range nBins,
      |(((yTrue.zip yProb).filter fun x => inBinIn exactBins nBins i x.2).map overconfidence).sum|) /
        yTrue.length)
  bounds : ∃ error, expectedCalibrationErrorIn exactBins yTrue yProb nBins = .ok error ∧
    |exactMean yProb - exactMean yTrue| ≤ error ∧ error ≤ 1
  order : ∀ yTrue' yProb', yTrue'.length = yProb'.length →
    (yTrue'.zip yProb').Perm (yTrue.zip yProb) →
      expectedCalibrationErrorIn exactBins yTrue' yProb' nBins =
        expectedCalibrationErrorIn exactBins yTrue yProb nBins
  refined : ∀ k, 1 ≤ k → ∃ coarse fine,
    expectedCalibrationErrorIn exactBins yTrue yProb nBins = .ok coarse ∧
      expectedCalibrationErrorIn exactBins yTrue yProb (k * nBins) = .ok fine ∧ coarse ≤ fine

def binIndex (nBins : Nat) (p : ℚ) : Nat := min ⌊p * nBins⌋₊ (nBins - 1)

theorem binIndex_lt {nBins : Nat} (hbins : 1 ≤ nBins) (p : ℚ) : binIndex nBins p < nBins := by
  unfold binIndex
  omega

theorem inBinIn_iff {nBins i : Nat} (hi : i < nBins) {p : ℚ} (hp : 0 ≤ p ∧ p ≤ 1) :
    inBinIn exactBins nBins i p = true ↔ binIndex nBins p = i := by
  have hbins : (0 : ℚ) < nBins := by exact_mod_cast Nat.zero_lt_of_lt hi
  have hproduct : 0 ≤ p * nBins := mul_nonneg hp.1 hbins.le
  have hlow : exactBins.linspace nBins i ≤ p ↔ i ≤ ⌊p * nBins⌋₊ := by
    show (i : ℚ) / nBins ≤ p ↔ _
    rw [div_le_iff₀ hbins, Nat.le_floor_iff hproduct]
  unfold inBinIn binIndex
  dsimp only
  by_cases hlast : i + 1 = nBins
  · have hhigh : p ≤ exactBins.linspace nBins (i + 1) := by
      show p ≤ ((i + 1 : Nat) : ℚ) / nBins
      rw [hlast, div_self hbins.ne']
      exact hp.2
    rw [if_pos hlast, Bool.and_eq_true]
    show decide _ = true ∧ decide _ = true ↔ _
    rw [decide_eq_true_iff, decide_eq_true_iff, hlow, and_iff_left hhigh]
    omega
  · have hhigh : p < exactBins.linspace nBins (i + 1) ↔ ⌊p * nBins⌋₊ < i + 1 := by
      show p < ((i + 1 : Nat) : ℚ) / nBins ↔ _
      rw [lt_div_iff₀ hbins, Nat.floor_lt hproduct]
    rw [if_neg hlast, Bool.and_eq_true]
    show decide _ = true ∧ decide _ = true ↔ _
    rw [decide_eq_true_iff, decide_eq_true_iff, hlow, hhigh]
    omega

/-- The bins of a finer grid lie in those of the coarser. -/
theorem binIndex_mul {nBins k : Nat} (hbins : 1 ≤ nBins) (hk : 1 ≤ k) (p : ℚ) :
    binIndex (k * nBins) p / k = binIndex nBins p := by
  have hkpos : (0 : ℚ) < k := by exact_mod_cast hk
  have hcoarse : ⌊p * nBins⌋₊ = ⌊p * ((k * nBins : Nat) : ℚ)⌋₊ / k := by
    rw [← Nat.floor_div_natCast, Nat.cast_mul]
    congr 1
    field_simp
  have hlast : (k * nBins - 1) / k = nBins - 1 := by
    obtain ⟨m, rfl⟩ : ∃ m, nBins = m + 1 := ⟨nBins - 1, by omega⟩
    rw [Nat.mul_succ, Nat.add_sub_assoc hk, Nat.mul_add_div hk, Nat.div_eq_of_lt (by omega)]
    rfl
  have hmonotone : Monotone fun m : Nat => m / k := fun _ _ h => Nat.div_le_div_right h
  unfold binIndex
  rw [hcoarse, ← hlast]
  exact hmonotone.map_min

/-! ## The error of samples -/

section Samples

variable {α : Type} (samples : List α)

/-- A mask computed from the samples selects those it holds of. -/
theorem masked_map (f : α → ℚ) (q : α → Bool) :
    masked (samples.map f) (samples.map q) = .ok ((samples.filter q).map f) := by
  rw [masked, if_pos (by rw [List.length_map, List.length_map]), List.zip_map', List.filter_map,
    List.map_map]
  rfl

theorem any_mask_iff (q : α → Bool) :
    ((samples.map q).any id = true) ↔ samples.filter q ≠ [] := by
  rw [List.any_map, List.any_eq_true, Ne, List.filter_eq_nil_iff]
  simp

theorem count_mask (q : α → Bool) : (samples.map q).count true = (samples.filter q).length := by
  rw [List.count, List.countP_map, List.countP_eq_length_filter]
  congr 1
  refine List.filter_congr fun x _ => ?_
  show (q x == true) = q x
  cases q x with
  | true => rfl
  | false => rfl

end Samples

theorem sum_overconfidence (samples : List Sample) :
    (samples.map overconfidence).sum =
      (samples.map Prod.snd).sum - (samples.map Prod.fst).sum := by
  induction samples with
  | nil => simp
  | cons sample samples ih =>
    rw [List.map_cons, List.map_cons, List.map_cons, List.sum_cons, List.sum_cons, List.sum_cons,
      ih, overconfidence]
    ring

/-- The weighted gap of some of the samples. -/
theorem weighted_gap {selected : List Sample} (h : selected ≠ []) (total : Nat) :
    (selected.length : ℚ) / total *
      |exactMean (selected.map Prod.snd) - exactMean (selected.map Prod.fst)| =
        |(selected.map overconfidence).sum| / total := by
  have hlength : (0 : ℚ) < selected.length := by
    exact_mod_cast List.length_pos_of_ne_nil h
  rw [exactMean, exactMean, List.length_map, List.length_map, ← sub_div, ← sum_overconfidence,
    abs_div, abs_of_pos hlength]
  field_simp

section Bins

variable {samples : List Sample} (hsamples : ∀ x ∈ samples, 0 ≤ x.2 ∧ x.2 ≤ 1)

/-- The bin of a sample. -/
def binOf (nBins : Nat) (sample : Sample) : Nat := binIndex nBins sample.2

include hsamples

theorem filter_inBinIn {nBins i : Nat} (hi : i < nBins) :
    (samples.filter fun x => inBinIn exactBins nBins i x.2) =
      samples.filter fun x => decide (binOf nBins x = i) := by
  refine List.filter_congr fun x hx => ?_
  rw [Bool.eq_iff_iff, decide_eq_true_iff]
  exact inBinIn_iff hi (hsamples x hx)

/-- A bin adds the size of what its samples are overconfident by. -/
theorem addBinIn_exact {nBins i : Nat} (hi : i < nBins) (error : ℚ) :
    addBinIn exactBins (samples.map Prod.fst) (samples.map Prod.snd) nBins error i =
      .ok (error + |groupSum (binOf nBins) overconfidence samples i| / samples.length) := by
  have hmask : (samples.map Prod.snd).map (inBinIn exactBins nBins i) =
      samples.map fun x => inBinIn exactBins nBins i x.2 := List.map_map
  unfold addBinIn
  dsimp only
  rw [hmask]
  by_cases hany : (samples.map fun x => inBinIn exactBins nBins i x.2).any id = true
  · have hselected := (any_mask_iff samples _).mp hany
    rw [if_pos hany, binGapIn, masked_map, masked_map, count_mask]
    rw [filter_inBinIn hsamples hi] at hselected ⊢
    show Except.ok (error + _ / _ * |exactMean _ - exactMean (List.map id _)|) = _
    rw [List.map_id, List.length_map, weighted_gap hselected]
    rfl
  · have hempty := not_not.mp (mt (any_mask_iff samples _).mpr hany)
    rw [filter_inBinIn hsamples hi] at hempty
    have hnone : groupSum (binOf nBins) overconfidence samples i = 0 := by
      rw [groupSum, hempty]
      rfl
    rw [if_neg hany, hnone, abs_zero, zero_div, add_zero]
    rfl

theorem foldlM_addBinIn {nBins n : Nat} (hn : n ≤ nBins) :
    (List.range n).foldlM
        (addBinIn exactBins (samples.map Prod.fst) (samples.map Prod.snd) nBins) 0 =
      .ok (deviation (Finset.range n) (binOf nBins) overconfidence samples / samples.length) := by
  induction n with
  | zero =>
    rw [deviation, Finset.range_zero, Finset.sum_empty, zero_div]
    rfl
  | succ n ih =>
    rw [List.range_succ, List.foldlM_append, ih (by omega), Raise.ok_bind, List.foldlM_cons,
      addBinIn_exact hsamples (by omega), Raise.ok_bind, deviation, deviation,
      Finset.sum_range_succ, add_div]
    rfl

/-- In exact rationals the calibration error is the deviation of the samples by bin. -/
theorem expectedCalibrationErrorIn_exact (hne : samples ≠ []) (nBins : Nat) :
    expectedCalibrationErrorIn exactBins (samples.map Prod.fst) (samples.map Prod.snd) nBins =
      .ok (deviation (Finset.range nBins) (binOf nBins) overconfidence samples /
        samples.length) := by
  rw [expectedCalibrationErrorIn, if_neg (mt List.map_eq_nil_iff.mp hne)]
  exact foldlM_addBinIn hsamples le_rfl

end Bins

theorem abs_overconfidence_le {sample : Sample} (hlabel : sample.1 = 0 ∨ sample.1 = 1)
    (hprob : 0 ≤ sample.2 ∧ sample.2 ≤ 1) : |overconfidence sample| ≤ 1 := by
  rw [overconfidence, abs_le]
  rcases hlabel with h | h
  · rw [h]
    constructor
    · linarith
    · linarith
  · rw [h]
    constructor
    · linarith
    · linarith

/-- The gap of the means is what all samples are overconfident by. -/
theorem abs_sub_exactMean (samples : List Sample) :
    |exactMean (samples.map Prod.snd) - exactMean (samples.map Prod.fst)| =
      |(samples.map overconfidence).sum| / samples.length := by
  rw [exactMean, exactMean, List.length_map, List.length_map, ← sub_div, ← sum_overconfidence,
    abs_div, Nat.abs_cast]

section Summary

variable {samples : List Sample} (hne : samples ≠ [])
  (hlabels : ∀ x ∈ samples, x.1 = 0 ∨ x.1 = 1) (hprobs : ∀ x ∈ samples, 0 ≤ x.2 ∧ x.2 ≤ 1)

theorem binOf_mem_range {nBins : Nat} (hbins : 1 ≤ nBins) (x : Sample) :
    binOf nBins x ∈ Finset.range nBins :=
  Finset.mem_range.mpr (binIndex_lt hbins x.2)

/-- The bins cover the unit interval and do not overlap. -/
theorem existsUnique_bin {nBins : Nat} (hbins : 1 ≤ nBins) {p : ℚ} (hp : 0 ≤ p ∧ p ≤ 1) :
    ∃! i, i < nBins ∧ inBinIn exactBins nBins i p = true := by
  have hlt := binIndex_lt hbins p
  refine ⟨binIndex nBins p, ⟨hlt, (inBinIn_iff hlt hp).mpr rfl⟩, fun i hi => ?_⟩
  exact ((inBinIn_iff hi.1 hp).mp hi.2).symm

include hlabels hprobs in
theorem sum_abs_overconfidence_le :
    (samples.map fun x => |overconfidence x|).sum ≤ samples.length := by
  have h := List.sum_le_card_nsmul (samples.map fun x => |overconfidence x|) 1
    (List.forall_mem_map.mpr fun x hx => abs_overconfidence_le (hlabels x hx) (hprobs x hx))
  rwa [List.length_map, nsmul_eq_mul, mul_one] at h

include hne hlabels hprobs in
theorem exact_bounds {nBins : Nat} (hbins : 1 ≤ nBins) :
    let error := deviation (Finset.range nBins) (binOf nBins) overconfidence samples /
      samples.length
    |exactMean (samples.map Prod.snd) - exactMean (samples.map Prod.fst)| ≤ error ∧
      error ≤ 1 := by
  have hlength : (0 : ℚ) < samples.length := by
    exact_mod_cast List.length_pos_of_ne_nil hne
  have hkeys : ∀ x ∈ samples, binOf nBins x ∈ Finset.range nBins :=
    fun x _ => binOf_mem_range hbins x
  constructor
  · rw [abs_sub_exactMean]
    exact div_le_div_of_nonneg_right (abs_sum_le_deviation hkeys) hlength.le
  · rw [div_le_one hlength]
    exact (deviation_le hkeys).trans (sum_abs_overconfidence_le hlabels hprobs)

include hne hprobs in
theorem expectedCalibrationErrorIn_perm {yTrue yProb : List ℚ}
    (hsame : yTrue.length = yProb.length) (hperm : (yTrue.zip yProb).Perm samples) (nBins : Nat) :
    expectedCalibrationErrorIn exactBins yTrue yProb nBins =
      expectedCalibrationErrorIn exactBins (samples.map Prod.fst) (samples.map Prod.snd)
        nBins := by
  have hne' : yTrue.zip yProb ≠ [] := fun h => hne (h ▸ hperm).nil_eq.symm
  have herror := expectedCalibrationErrorIn_exact (fun x hx => hprobs x (hperm.mem_iff.mp hx))
    hne' nBins
  rw [List.map_fst_zip hsame.le, List.map_snd_zip hsame.ge, deviation_perm hperm,
    hperm.length_eq] at herror
  rw [herror, expectedCalibrationErrorIn_exact hprobs hne]

/-- A bin of the coarser grid is `k` bins of the finer. -/
theorem deviation_binOf_le {nBins k : Nat} (hbins : 1 ≤ nBins) (hk : 1 ≤ k)
    (samples : List Sample) :
    deviation (Finset.range nBins) (binOf nBins) overconfidence samples ≤
      deviation (Finset.range (k * nBins)) (binOf (k * nBins)) overconfidence samples := by
  have hcoarser : ∀ i ∈ Finset.range (k * nBins), i / k ∈ Finset.range nBins := by
    intro i hi
    rw [Finset.mem_range] at hi ⊢
    exact Nat.div_lt_of_lt_mul hi
  have hbin : (fun x => binOf (k * nBins) x / k) = binOf nBins :=
    funext fun x => binIndex_mul hbins hk x.2
  have hfine : ∀ x ∈ samples, binOf (k * nBins) x ∈ Finset.range (k * nBins) :=
    fun x _ => binOf_mem_range (Nat.mul_pos hk hbins) x
  have h := deviation_coarser overconfidence hfine hcoarser
  rwa [hbin] at h

include hne hlabels hprobs in
theorem soundSummary_of_samples {nBins : Nat} (hbins : 1 ≤ nBins) :
    SoundSummary nBins (samples.map Prod.fst) (samples.map Prod.snd) where
  one_bin p hp := by
    obtain ⟨x, hx, rfl⟩ := List.mem_map.mp hp
    exact existsUnique_bin hbins (hprobs x hx)
  by_bins := by
    rw [List.zip_map', List.map_id', List.length_map,
      expectedCalibrationErrorIn_exact hprobs hne nBins, deviation]
    refine congrArg (fun d : ℚ => Except.ok (d / samples.length)) ?_
    refine Finset.sum_congr rfl fun i hi => ?_
    rw [groupSum, filter_inBinIn hprobs (Finset.mem_range.mp hi)]
  bounds := ⟨_, expectedCalibrationErrorIn_exact hprobs hne nBins,
    exact_bounds hne hlabels hprobs hbins⟩
  order yTrue yProb hsame hperm := by
    rw [List.zip_map', List.map_id'] at hperm
    exact expectedCalibrationErrorIn_perm hne hprobs hsame hperm nBins
  refined k hk := by
    refine ⟨_, _, expectedCalibrationErrorIn_exact hprobs hne nBins,
      expectedCalibrationErrorIn_exact hprobs hne (k * nBins), ?_⟩
    exact div_le_div_of_nonneg_right (deviation_binOf_le hbins hk samples) (Nat.cast_nonneg _)

end Summary

theorem calibration_error_sound :
    (∀ np yTrue yProb nBins, expectedCalibrationError np yTrue yProb nBins =
      expectedCalibrationErrorIn (platformBins np) yTrue yProb nBins) ∧
    ∀ nBins yTrue yProb, 1 ≤ nBins → yTrue ≠ [] → yTrue.length = yProb.length →
      (∀ y ∈ yTrue, y = 0 ∨ y = 1) → (∀ p ∈ yProb, 0 ≤ p ∧ p ≤ 1) →
        SoundSummary nBins yTrue yProb := by
  refine ⟨expectedCalibrationError_eq, fun nBins yTrue yProb hbins hne hsame hlabels hprobs => ?_⟩
  have hlabels' : ∀ x ∈ yTrue.zip yProb, x.1 = 0 ∨ x.1 = 1 :=
    fun x hx => hlabels x.1 (List.of_mem_zip hx).1
  have hprobs' : ∀ x ∈ yTrue.zip yProb, 0 ≤ x.2 ∧ x.2 ≤ 1 :=
    fun x hx => hprobs x.2 (List.of_mem_zip hx).2
  have hne' : yTrue.zip yProb ≠ [] := by
    rw [Ne, List.zip_eq_nil_iff, not_or]
    refine ⟨hne, fun hnil => hne ?_⟩
    rw [hnil] at hsame
    exact List.eq_nil_of_length_eq_zero hsame
  have h := soundSummary_of_samples hne' hlabels' hprobs' hbins
  rwa [List.map_fst_zip hsame.le, List.map_snd_zip hsame.ge] at h

/-- One sample on the edge of two bins, and one at the closed end of the last. -/
theorem calibration_error_sound_edges : SoundSummary 2 [0, 1] [1 / 2, 1] :=
  calibration_error_sound.2 2 [0, 1] [1 / 2, 1] (by decide) (by decide) rfl
    (by simp) (by norm_num)

end Models
end QuantPlatform
