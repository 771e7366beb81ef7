import QuantPlatform.Models.Dataset
import QuantPlatform.Relational.Ascending

namespace QuantPlatform
namespace Models

open Relational Raise

structure TrainValidationSplit (F : Type) where
  trainSamples : List (DatasetSample F)
  validationSamples : List (DatasetSample F)
  splitAsOf : Instant
  deriving DecidableEq, Repr

section Split

variable {F : Type}

/-- `sorted(samples, key=lambda s: s.as_of)`, which is stable. -/
def sortedByAsOf (samples : List (DatasetSample F)) : List (DatasetSample F) :=
  samples.insertionSort fun a b => a.asOf ≤ b.asOf

theorem sortedByAsOf_perm (samples : List (DatasetSample F)) :
    (sortedByAsOf samples).Perm samples :=
  List.perm_insertionSort _ samples

theorem sortedByAsOf_ascending (samples : List (DatasetSample F)) :
    Ascending DatasetSample.asOf (sortedByAsOf samples) :=
  (OrderBy.byColumn DatasetSample.asOf).sorted samples

variable [FloatArithmetic F]

/-- `0.0 < validation_fraction < 1.0`. -/
def validFraction (validationFraction : F) : Bool :=
  FloatArithmetic.lt (FloatArithmetic.ofInt 0) validationFraction &&
    FloatArithmetic.lt validationFraction (FloatArithmetic.ofInt 1)

/-- How many of `count` samples are trained on. -/
def splitIndex (count : Nat) (validationFraction : F) : Except Exn Nat := do
  let trained := FloatArithmetic.sub (FloatArithmetic.ofInt 1) validationFraction
  let index ← FloatArithmetic.round (FloatArithmetic.mul (FloatArithmetic.ofInt count) trained)
  return (min (max index 1) ((count : Int) - 1)).toNat

def timeOrderedSplit (samples : List (DatasetSample F)) (validationFraction : F) :
    Except Exn (TrainValidationSplit F) := do
  if !validFraction validationFraction then
    throw .valueError
  if samples.length < 2 then
    throw .valueError
  let ordered := sortedByAsOf samples
  let index ← splitIndex ordered.length validationFraction
  let first ← item (ordered.drop index) 0
  return {
    trainSamples := ordered.take index
    validationSamples := ordered.drop index
    splitAsOf := first.asOf }

/-- The cut leaves a sample on either side. -/
theorem splitIndex_bounds {count index : Nat} {validationFraction : F} (hcount : 2 ≤ count)
    (h : splitIndex count validationFraction = .ok index) : 1 ≤ index ∧ index < count := by
  obtain ⟨rounded, _, h⟩ := bind_eq_ok_iff.mp h
  have hindex : (min (max rounded 1) ((count : Int) - 1)).toNat = index := Except.ok.inj h
  omega

theorem timeOrderedSplit_eq_ok_iff {samples : List (DatasetSample F)} {validationFraction : F}
    (hfraction : validFraction validationFraction = true) (hsamples : 2 ≤ samples.length)
    {split : TrainValidationSplit F} :
    timeOrderedSplit samples validationFraction = .ok split ↔
      ∃ index first, splitIndex samples.length validationFraction = .ok index ∧
        (sortedByAsOf samples)[index]? = some first ∧
        split = { trainSamples := (sortedByAsOf samples).take index
                  validationSamples := (sortedByAsOf samples).drop index
                  splitAsOf := first.asOf } := by
  have hlength : (sortedByAsOf samples).length = samples.length := (sortedByAsOf_perm _).length_eq
  have hfirst : ∀ (index : Nat) (first : DatasetSample F),
      item ((sortedByAsOf samples).drop index) 0 = .ok first ↔
        (sortedByAsOf samples)[index]? = some first := by
    intro index first
    have hzero : item ((sortedByAsOf samples).drop index) 0 = .ok first ↔
        ((sortedByAsOf samples).drop index)[0]? = some first := item_natCast_eq_ok_iff
    rw [hzero, List.getElem?_drop, Nat.add_zero]
  unfold timeOrderedSplit
  simp only [hfraction, Bool.not_true, Bool.false_eq_true, if_false,
    if_neg (Nat.not_lt.mpr hsamples), hlength]
  constructor
  · intro h
    obtain ⟨index, hindex, h⟩ := bind_eq_ok_iff.mp h
    obtain ⟨first, hitem, h⟩ := bind_eq_ok_iff.mp h
    exact ⟨index, first, hindex, (hfirst index first).mp hitem, (Except.ok.inj h).symm⟩
  · intro h
    obtain ⟨index, first, hindex, hitem, rfl⟩ := h
    refine bind_eq_ok_iff.mpr ⟨index, hindex, ?_⟩
    exact bind_eq_ok_iff.mpr ⟨first, (hfirst index first).mpr hitem, rfl⟩

/-- A sample that is trained on is one of those given. -/
theorem mem_of_mem_trainSamples {samples : List (DatasetSample F)} {validationFraction : F}
    {split : TrainValidationSplit F} (h : timeOrderedSplit samples validationFraction = .ok split)
    {s : DatasetSample F} (hs : s ∈ split.trainSamples) : s ∈ samples := by
  have hfraction : validFraction validationFraction = true := by
    by_contra hinvalid
    unfold timeOrderedSplit at h
    rw [Bool.eq_false_of_not_eq_true hinvalid] at h
    cases h
  have hsamples : 2 ≤ samples.length := by
    by_contra hfew
    unfold timeOrderedSplit at h
    simp only [hfraction, Bool.not_true, Bool.false_eq_true, if_false,
      if_pos (Nat.not_le.mp hfew)] at h
    cases h
  obtain ⟨index, first, _, _, rfl⟩ := (timeOrderedSplit_eq_ok_iff hfraction hsamples).mp h
  exact (sortedByAsOf_perm samples).mem_iff.mp (List.mem_of_mem_take hs)

/-! ## When a split is chronological -/

/-- Samples that share the `as_of` `t` are on both sides of a cut at `index`:
fewer samples than that are earlier than `t`, and more are no later. -/
def Straddles (samples : List (DatasetSample F)) (index : Nat) (t : Instant) : Prop :=
  samples.countP (fun s => s.asOf < t) < index ∧ index < samples.countP fun s => s.asOf ≤ t

/-- A split into two parts of the samples, the one entirely before the other,
whatever order the samples come in. -/
structure IsChronologicalSplit (samples : List (DatasetSample F)) (validationFraction : F)
    (split : TrainValidationSplit F) : Prop where
  train_ne_nil : split.trainSamples ≠ []
  validation_ne_nil : split.validationSamples ≠ []
  perm : (split.trainSamples ++ split.validationSamples).Perm samples
  separated : ∀ a ∈ split.trainSamples, ∀ b ∈ split.validationSamples, a.asOf < b.asOf
  before_splitAsOf : ∀ a ∈ split.trainSamples, a.asOf < split.splitAsOf
  order_irrelevant : ∀ samples' : List (DatasetSample F), samples'.Perm samples →
    ∃ split', timeOrderedSplit samples' validationFraction = .ok split' ∧
      split'.trainSamples.Perm split.trainSamples ∧
      split'.validationSamples.Perm split.validationSamples

omit [FloatArithmetic F] in
theorem straddles_congr {samples samples' : List (DatasetSample F)} (h : samples.Perm samples')
    (index : Nat) (t : Instant) : Straddles samples index t ↔ Straddles samples' index t := by
  unfold Straddles
  rw [h.countP_eq, h.countP_eq]

omit [FloatArithmetic F] in
/-- The sorted samples are separated at a cut exactly when it falls between two
groups of samples that share an `as_of`. -/
theorem sortedByAsOf_separated_iff {samples : List (DatasetSample F)} {index : Nat}
    (hindex : index ≤ samples.length) :
    (∀ a ∈ (sortedByAsOf samples).take index, ∀ b ∈ (sortedByAsOf samples).drop index,
      a.asOf < b.asOf) ↔ ∀ t, ¬ Straddles samples index t := by
  have hlength : index ≤ (sortedByAsOf samples).length := by
    rw [(sortedByAsOf_perm samples).length_eq]
    exact hindex
  rw [(sortedByAsOf_ascending samples).cut_separates_iff hlength]
  exact forall_congr' fun t =>
    not_congr (straddles_congr (sortedByAsOf_perm samples) index t)

omit [FloatArithmetic F] in
/-- A cut that separates the samples gives those before an instant and the others. -/
theorem take_eq_filter {samples : List (DatasetSample F)} {index : Nat} {first : DatasetSample F}
    (hfirst : (sortedByAsOf samples)[index]? = some first)
    (hseparated : ∀ a ∈ (sortedByAsOf samples).take index,
      ∀ b ∈ (sortedByAsOf samples).drop index, a.asOf < b.asOf) :
    (sortedByAsOf samples).take index =
        (sortedByAsOf samples).filter (fun s => s.asOf < first.asOf) ∧
      (sortedByAsOf samples).drop index =
        (sortedByAsOf samples).filter fun s => first.asOf ≤ s.asOf := by
  have hsorted := sortedByAsOf_ascending samples
  generalize sortedByAsOf samples = ordered at *
  have hmem : first ∈ ordered.drop index := by
    refine List.mem_of_getElem? (i := 0) ?_
    rw [List.getElem?_drop, Nat.add_zero, hfirst]
  have hbefore : ∀ a ∈ ordered.take index, a.asOf < first.asOf :=
    fun a ha => hseparated a ha first hmem
  have hafter : ∀ b ∈ ordered.drop index, first.asOf ≤ b.asOf := by
    intro b hb
    obtain ⟨i, hi⟩ := List.mem_iff_getElem?.mp hb
    rw [List.getElem?_drop] at hi
    exact hsorted.le_of_getElem? (Nat.le_add_right index i) hfirst hi
  constructor
  · conv => rhs; rw [← List.take_append_drop index ordered]
    rw [List.filter_append, List.filter_eq_self.mpr (by simpa using hbefore),
      List.filter_eq_nil_iff.mpr (by simpa using hafter), List.append_nil]
  · conv => rhs; rw [← List.take_append_drop index ordered]
    rw [List.filter_append, List.filter_eq_nil_iff.mpr (by simpa using hbefore),
      List.filter_eq_self.mpr (by simpa using hafter), List.nil_append]

/-- Without a straddling group any order of the input gives the same two parts. -/
theorem timeOrderedSplit_perm {samples samples' : List (DatasetSample F)} {validationFraction : F}
    (hfraction : validFraction validationFraction = true) (hsamples : 2 ≤ samples.length)
    (hperm : samples'.Perm samples) {index : Nat}
    (hindex : splitIndex samples.length validationFraction = .ok index)
    (hcut : ∀ t, ¬ Straddles samples index t) {split : TrainValidationSplit F}
    (hsplit : timeOrderedSplit samples validationFraction = .ok split) :
    ∃ split', timeOrderedSplit samples' validationFraction = .ok split' ∧
      split'.trainSamples.Perm split.trainSamples ∧
      split'.validationSamples.Perm split.validationSamples := by
  have hlength : samples'.length = samples.length := hperm.length_eq
  have hbounds := splitIndex_bounds hsamples hindex
  have hordered : SameUpToTies DatasetSample.asOf (sortedByAsOf samples') (sortedByAsOf samples) :=
    OrderBy.sameUpToTies_arrange (OrderBy.byColumn _) (OrderBy.byColumn _) hperm
  obtain ⟨index', first, hindex', hfirst, rfl⟩ :=
    (timeOrderedSplit_eq_ok_iff hfraction hsamples).mp hsplit
  obtain rfl : index = index' := Except.ok.inj (hindex.symm.trans hindex')
  -- The cut of the other order falls on the same `as_of`.
  have hindexLt : index < (sortedByAsOf samples').length := by
    rw [(sortedByAsOf_perm samples').length_eq, hlength]
    exact hbounds.2
  obtain ⟨first', hfirst'⟩ : ∃ first', (sortedByAsOf samples')[index]? = some first' :=
    ⟨_, List.getElem?_eq_getElem hindexLt⟩
  have hasOf : first'.asOf = first.asOf := by
    have hcols := congrArg (fun col : List Instant => col[index]?) hordered.2
    simp only [List.getElem?_map, hfirst, hfirst', Option.map_some, Option.some.injEq] at hcols
    exact hcols
  have hcut' : ∀ t, ¬ Straddles samples' index t := fun t h =>
    hcut t ((straddles_congr hperm index t).mp h)
  have hparts := take_eq_filter hfirst ((sortedByAsOf_separated_iff hbounds.2.le).mpr hcut)
  have hparts' := take_eq_filter hfirst'
    ((sortedByAsOf_separated_iff (hlength ▸ hbounds.2.le)).mpr hcut')
  refine ⟨_, (timeOrderedSplit_eq_ok_iff hfraction (hlength ▸ hsamples)).mpr
    ⟨index, first', hlength ▸ hindex, hfirst', rfl⟩, ?_, ?_⟩
  · show ((sortedByAsOf samples').take index).Perm ((sortedByAsOf samples).take index)
    rw [hparts.1, hparts'.1, hasOf]
    exact hordered.1.filter _
  · show ((sortedByAsOf samples').drop index).Perm ((sortedByAsOf samples).drop index)
    rw [hparts.2, hparts'.2, hasOf]
    exact hordered.1.filter _

/-- Of samples with at least two `as_of`, the split is chronological exactly when
the cut its fraction gives does not fall inside a group that shares an `as_of`. -/
theorem timeOrderedSplit_chronological_iff (samples : List (DatasetSample F))
    (validationFraction : F) (hfraction : validFraction validationFraction = true)
    (hdistinct : ∃ a ∈ samples, ∃ b ∈ samples, a.asOf ≠ b.asOf) :
    (∃ split, timeOrderedSplit samples validationFraction = .ok split ∧
        IsChronologicalSplit samples validationFraction split) ↔
      ∃ index, splitIndex samples.length validationFraction = .ok index ∧
        ∀ t, ¬ Straddles samples index t := by
  have hsamples : 2 ≤ samples.length := by
    obtain ⟨a, ha, b, hb, hne⟩ := hdistinct
    by_contra hshort
    rcases samples with _ | ⟨s, _ | ⟨_, _⟩⟩
    · cases ha
    · rw [List.mem_singleton] at ha hb
      exact hne (by rw [ha, hb])
    · exact hshort (by simp)
  constructor
  · intro h
    obtain ⟨split, hsplit, hchronological⟩ := h
    obtain ⟨index, first, hindex, _, rfl⟩ :=
      (timeOrderedSplit_eq_ok_iff hfraction hsamples).mp hsplit
    have hbounds := splitIndex_bounds hsamples hindex
    exact ⟨index, hindex,
      (sortedByAsOf_separated_iff hbounds.2.le).mp hchronological.separated⟩
  · intro h
    obtain ⟨index, hindex, hcut⟩ := h
    have hbounds := splitIndex_bounds hsamples hindex
    have hindexLt : index < (sortedByAsOf samples).length := by
      rw [(sortedByAsOf_perm samples).length_eq]
      exact hbounds.2
    have hfirst : (sortedByAsOf samples)[index]? = some (sortedByAsOf samples)[index] :=
      List.getElem?_eq_getElem hindexLt
    have hsplit := (timeOrderedSplit_eq_ok_iff hfraction hsamples).mpr
      ⟨index, _, hindex, hfirst, rfl⟩
    have hseparated := (sortedByAsOf_separated_iff hbounds.2.le).mpr hcut
    refine ⟨_, hsplit, ?_⟩
    constructor
    case train_ne_nil =>
      show (sortedByAsOf samples).take index ≠ []
      rw [Ne, List.take_eq_nil_iff]
      intro hnil
      rcases hnil with hzero | hempty
      · omega
      · rw [hempty] at hindexLt
        exact absurd hindexLt (Nat.not_lt_zero _)
    case validation_ne_nil =>
      show (sortedByAsOf samples).drop index ≠ []
      rw [Ne, List.drop_eq_nil_iff]
      omega
    case perm =>
      show ((sortedByAsOf samples).take index ++ (sortedByAsOf samples).drop index).Perm samples
      rw [List.take_append_drop]
      exact sortedByAsOf_perm samples
    case separated => exact hseparated
    case before_splitAsOf =>
      intro a ha
      refine hseparated a ha _ (List.mem_of_getElem? (i := 0) ?_)
      rw [List.getElem?_drop, Nat.add_zero, hfirst]
    case order_irrelevant =>
      intro samples' hperm
      exact timeOrderedSplit_perm hfraction hsamples hperm hindex hcut hsplit

/-- One sample of an instrument on each of the days given. -/
def dailySamples (instrumentId : Nat) (days : List Instant) : List (DatasetSample ℚ) :=
  days.map fun asOf =>
    { instrumentId, symbol := "005930", asOf
      features := { schemaVersion := featureSchemaVersion, values := [] }
      label := 1, forwardReturn := Decimal.ofInt 1 }

/-- Two instruments on two days, cut in half, are cut between the days. -/
theorem two_days_split_chronological :
    let samples := dailySamples 1 [1, 2] ++ dailySamples 2 [1, 2]
    ∃ split, timeOrderedSplit samples (1 / 2) = .ok split ∧
      IsChronologicalSplit samples (1 / 2) split := by
  intro samples
  have hcut : ∀ t, ¬ Straddles samples 2 t :=
    (sortedByAsOf_separated_iff (by decide)).mp (by decide +kernel)
  exact (timeOrderedSplit_chronological_iff samples (1 / 2) (by decide +kernel)
    (by decide)).mpr ⟨2, by decide +kernel, hcut⟩

/-- On three days half of the samples ends inside the second day. -/
theorem three_days_split_straddles :
    ¬ ∀ (samples : List (DatasetSample ℚ)) (validationFraction : ℚ),
      validFraction validationFraction = true →
      (∃ a ∈ samples, ∃ b ∈ samples, a.asOf ≠ b.asOf) →
      ∃ split, timeOrderedSplit samples validationFraction = .ok split ∧
        IsChronologicalSplit samples validationFraction split := by
  intro h
  let samples := dailySamples 1 [1, 2, 3] ++ dailySamples 2 [1, 2, 3]
  obtain ⟨split, hsplit, hchronological⟩ := h samples (1 / 2) (by decide +kernel) (by decide)
  obtain ⟨index, first, hindex, _, rfl⟩ :=
    (timeOrderedSplit_eq_ok_iff (by decide +kernel) (by decide)).mp hsplit
  obtain rfl : index = 3 := Except.ok.inj (hindex.symm.trans (by decide +kernel))
  have hseparated : ∀ a ∈ (sortedByAsOf samples).take 3, ∀ b ∈ (sortedByAsOf samples).drop 3,
      a.asOf < b.asOf := hchronological.separated
  exact absurd hseparated (by decide)

end Split

end Models
end QuantPlatform
