import QuantPlatform.Models.Calibration
import QuantPlatform.Models.Storage
import Mathlib.Algebra.BigOperators.Ring.List
import Mathlib.Data.List.Induction
import Mathlib.Data.String.Basic

namespace QuantPlatform
namespace Models

open Raise Groups

section Indices

variable {α : Type} (key : α → String)

/-- The groups of what was met so far. -/
structure Split (entries : List (α × Nat)) (groups : List (String × List Nat)) : Prop where
  distinct : (groups.map Prod.fst).Nodup
  keys : ∀ k, k ∈ groups.map Prod.fst ↔ ∃ entry ∈ entries, key entry.1 = k
  indices : ∀ group ∈ groups,
    group.2 = (entries.filter fun entry => key entry.1 = group.1).map Prod.snd

variable {key}

theorem keys_appendIndex (k : String) (index : Nat) (groups : List (String × List Nat)) :
    (appendIndex k index groups).map Prod.fst =
      if k ∈ groups.map Prod.fst then groups.map Prod.fst else groups.map Prod.fst ++ [k] := by
  induction groups with
  | nil => rfl
  | cons group rest ih =>
    obtain ⟨other, indices⟩ := group
    rw [appendIndex]
    by_cases hkey : other = k
    · rw [if_pos hkey, if_pos (by simp [hkey])]
      rfl
    · rw [if_neg hkey, List.map_cons, List.map_cons, ih]
      simp only [List.mem_cons, Ne.symm hkey, false_or]
      split_ifs
      · rfl
      · rfl

/-- The group of the key gets the index, and the others stay. -/
theorem of_mem_appendIndex {k : String} {index : Nat} {groups : List (String × List Nat)}
    (hdistinct : (groups.map Prod.fst).Nodup) {group : String × List Nat}
    (h : group ∈ appendIndex k index groups) :
    (group.1 ≠ k ∧ group ∈ groups) ∨ (∃ indices, (k, indices) ∈ groups ∧
      group = (k, indices ++ [index])) ∨ (k ∉ groups.map Prod.fst ∧ group = (k, [index])) := by
  induction groups with
  | nil =>
    rw [appendIndex, List.mem_singleton] at h
    exact Or.inr (Or.inr ⟨List.not_mem_nil, h⟩)
  | cons first rest ih =>
    obtain ⟨other, indices⟩ := first
    rw [List.map_cons, List.nodup_cons] at hdistinct
    rw [appendIndex] at h
    by_cases hkey : other = k
    · rw [if_pos hkey, List.mem_cons] at h
      rcases h with rfl | h
      · exact Or.inr (Or.inl ⟨indices, hkey ▸ List.mem_cons_self, by rw [hkey]⟩)
      · have hmem : group.1 ∈ rest.map Prod.fst := List.mem_map_of_mem h
        refine Or.inl ⟨fun hgroup => hdistinct.1 ?_, List.mem_cons_of_mem _ h⟩
        rw [hkey, ← hgroup]
        exact hmem
    · rw [if_neg hkey, List.mem_cons] at h
      rcases h with rfl | h
      · exact Or.inl ⟨hkey, List.mem_cons_self⟩
      · rcases ih hdistinct.2 h with ⟨hne, hmem⟩ | ⟨old, hold, hgroup⟩ | ⟨hnew, hgroup⟩
        · exact Or.inl ⟨hne, List.mem_cons_of_mem _ hmem⟩
        · exact Or.inr (Or.inl ⟨old, List.mem_cons_of_mem _ hold, hgroup⟩)
        · refine Or.inr (Or.inr ⟨?_, hgroup⟩)
          rw [List.map_cons, List.mem_cons, not_or]
          exact ⟨Ne.symm hkey, hnew⟩

theorem Split.appendIndex {entries : List (α × Nat)} {groups : List (String × List Nat)}
    (h : Split key entries groups) (entry : α × Nat) :
    Split key (entries ++ [entry]) (appendIndex (key entry.1) entry.2 groups) where
  distinct := by
    rw [keys_appendIndex]
    split_ifs with hkey
    · exact h.distinct
    · rw [List.nodup_append]
      refine ⟨h.distinct, List.nodup_singleton _, fun a ha b hb => ?_⟩
      rw [List.mem_singleton.mp hb]
      rintro rfl
      exact hkey ha
  keys k := by
    rw [mem_keys_appendIndex, h.keys]
    simp only [List.mem_append, List.mem_singleton, or_and_right, exists_or, exists_eq_left]
    rw [or_comm, eq_comm]
  indices group hgroup := by
    rw [List.filter_append, List.map_append]
    rcases of_mem_appendIndex h.distinct hgroup with
      ⟨hne, hmem⟩ | ⟨old, hold, rfl⟩ | ⟨hnew, rfl⟩
    · rw [h.indices group hmem, List.filter_cons_of_neg (by simpa using Ne.symm hne)]
      simp
    · rw [← h.indices _ hold, List.filter_cons_of_pos (by simp)]
      rfl
    · have hnone : entries.filter (fun other => key other.1 = key entry.1) = [] := by
        rw [List.filter_eq_nil_iff]
        intro other hother hkey
        exact hnew ((h.keys _).mpr ⟨other, hother, by simpa using hkey⟩)
      rw [hnone, List.filter_cons_of_pos (by simp)]
      rfl

end Indices

theorem split_groupIndices {F : Type} (groupKeyFn : DatasetSample F → String)
    (samples : List (DatasetSample F)) :
    Split groupKeyFn samples.zipIdx (groupIndices groupKeyFn samples) := by
  unfold groupIndices
  generalize samples.zipIdx = entries
  induction entries using List.reverseRecOn with
  | nil => exact ⟨List.nodup_nil, by simp, by simp⟩
  | append_singleton entries entry ih =>
    rw [List.foldl_append]
    exact ih.appendIndex entry

/-- The entries of an array that belong to the samples of a group. -/
def ofGroup {α β : Type} (key : α → String) (samples : List α) (xs : List β) (k : String) :
    List β :=
  ((samples.zip xs).filter fun entry => key entry.1 = k).map Prod.snd

section OfGroup

variable {α β : Type} {key : α → String}

theorem taken_filter (k : String) (pre : List β) {samples : List α} {xs : List β}
    (h : samples.length = xs.length) :
    taken (pre ++ xs) (((samples.zipIdx pre.length).filter fun entry => key entry.1 = k).map
      Prod.snd) = .ok (ofGroup key samples xs k) := by
  induction samples generalizing pre xs with
  | nil => rfl
  | cons sample rest ih =>
    cases xs with
    | nil => cases h
    | cons x xs =>
      have hrest := ih (pre ++ [x]) (Nat.succ.inj h)
      rw [List.append_assoc, List.singleton_append, List.length_append,
        List.length_singleton] at hrest
      rw [ofGroup, List.zipIdx_cons, List.zip_cons_cons]
      by_cases hkey : key sample = k
      · rw [List.filter_cons_of_pos (by simpa using hkey),
          List.filter_cons_of_pos (by simpa using hkey), List.map_cons, List.map_cons]
        have hitem : item (pre ++ x :: xs) pre.length = .ok x :=
          item_natCast_eq_ok_iff.mpr (by simp)
        unfold taken at hrest ⊢
        rw [List.mapM_cons, hitem, Raise.ok_bind, hrest]
        rfl
      · rw [List.filter_cons_of_neg (by simpa using hkey),
          List.filter_cons_of_neg (by simpa using hkey)]
        exact hrest

/-- Three columns of one list of entries. -/
theorem ofGroup_map {γ : Type} (f : γ → α) (g : γ → β) (entries : List γ) (k : String) :
    ofGroup key (entries.map f) (entries.map g) k =
      (entries.filter fun entry => key (f entry) = k).map g := by
  rw [ofGroup, List.zip_map', List.filter_map, List.map_map]
  rfl

end OfGroup

/-- The number of samples that metrics are of. -/
theorem sampleCount_of_computed {np : Numpy} {sk : Sklearn} {yTrue : List Label}
    {yProb : List PyFloat} {decisionThreshold : PyFloat} {metrics : ClassificationMetrics}
    (h : computeClassificationMetrics np sk yTrue yProb decisionThreshold = .ok metrics) :
    metrics.sampleCount = yTrue.length := by
  unfold computeClassificationMetrics at h
  split_ifs at h with hnil
  · cases h
    rw [hnil]
    rfl
  · obtain ⟨_, _, h⟩ := bind_eq_ok_iff.mp h
    obtain ⟨_, _, h⟩ := bind_eq_ok_iff.mp h
    obtain ⟨_, _, h⟩ := bind_eq_ok_iff.mp h
    obtain ⟨_, _, h⟩ := bind_eq_ok_iff.mp h
    obtain ⟨_, _, h⟩ := bind_eq_ok_iff.mp h
    cases h
    rfl

section Groups

variable {F : Type} {groupKeyFn : DatasetSample F → String} {np : Numpy} {sk : Sklearn}
  {samples : List (DatasetSample F)} {yTrue : List Label} {yProb : List PyFloat}
  {decisionThreshold : PyFloat} {grouped : List GroupedMetrics}
  (hlabels : samples.length = yTrue.length) (hprobs : samples.length = yProb.length)
  (h : computeMetricsByGroup np sk samples yTrue yProb groupKeyFn decisionThreshold =
    .ok grouped)

include h

/-- The groups come in the order of their keys. -/
theorem keys_of_computeMetricsByGroup :
    grouped.map GroupedMetrics.groupKey =
      ((groupIndices groupKeyFn samples).insertionSort fun a b => a.1 ≤ b.1).map Prod.fst := by
  rw [← List.forall₂_eq_eq_eq, List.forall₂_map_left_iff, List.forall₂_map_right_iff]
  refine (mapM_eq_ok_iff.mp h).flip.imp fun g group hgroup => ?_
  obtain ⟨_, _, hgroup⟩ := bind_eq_ok_iff.mp hgroup
  obtain ⟨_, _, hgroup⟩ := bind_eq_ok_iff.mp hgroup
  obtain ⟨_, _, hgroup⟩ := bind_eq_ok_iff.mp hgroup
  rw [← Except.ok.inj hgroup]

include hlabels hprobs in
theorem metrics_of_computeMetricsByGroup {g : GroupedMetrics} (hg : g ∈ grouped) :
    computeClassificationMetrics np sk (ofGroup groupKeyFn samples yTrue g.groupKey)
      (ofGroup groupKeyFn samples yProb g.groupKey) decisionThreshold = .ok g.metrics := by
  obtain ⟨group, hgroup, _, hcomputed, rfl⟩ :=
    (exists_mem_iff_of_mapM h (· = g)).mp ⟨g, hg, rfl⟩
  rw [List.mem_insertionSort] at hgroup
  obtain ⟨labels, htaken, hcomputed⟩ := bind_eq_ok_iff.mp hcomputed
  obtain ⟨probabilities, htaken', hcomputed⟩ := bind_eq_ok_iff.mp hcomputed
  obtain ⟨metrics, hmetrics, hcomputed⟩ := bind_eq_ok_iff.mp hcomputed
  have hindices := (split_groupIndices groupKeyFn samples).indices group hgroup
  have hown : taken yTrue group.2 = .ok (ofGroup groupKeyFn samples yTrue group.1) := by
    rw [hindices]
    exact taken_filter group.1 [] hlabels
  have hown' : taken yProb group.2 = .ok (ofGroup groupKeyFn samples yProb group.1) := by
    rw [hindices]
    exact taken_filter group.1 [] hprobs
  rw [← Except.ok.inj hcomputed]
  rw [hown] at htaken
  rw [hown'] at htaken'
  rw [Except.ok.inj htaken, Except.ok.inj htaken']
  exact hmetrics

theorem sorted_keys : (grouped.map GroupedMetrics.groupKey).Pairwise (· < ·) := by
  rw [keys_of_computeMetricsByGroup h]
  have hsplit := split_groupIndices groupKeyFn samples
  have hperm := List.perm_insertionSort (fun a b : String × List Nat => a.1 ≤ b.1)
    (groupIndices groupKeyFn samples)
  have hdistinct := (hperm.map Prod.fst).nodup_iff.mpr hsplit.distinct
  have htotal : Std.Total fun a b : String × List Nat => a.1 ≤ b.1 :=
    ⟨fun a b => le_total a.1 b.1⟩
  have htrans : IsTrans (String × List Nat) fun a b => a.1 ≤ b.1 := ⟨fun _ _ _ => le_trans⟩
  have hle : (((groupIndices groupKeyFn samples).insertionSort fun a b => a.1 ≤ b.1).map
      Prod.fst).Pairwise (· ≤ ·) :=
    List.pairwise_map.mpr (List.pairwise_insertionSort _ _)
  exact (hle.and hdistinct).imp fun hab => lt_of_le_of_ne hab.1 hab.2

theorem mem_keys_iff (k : String) :
    k ∈ grouped.map GroupedMetrics.groupKey ↔ k ∈ samples.map groupKeyFn := by
  rw [keys_of_computeMetricsByGroup h, ((List.perm_insertionSort
    (fun a b : String × List Nat => a.1 ≤ b.1) _).map Prod.fst).mem_iff]
  exact (groupIndices_spec groupKeyFn samples).2 k

include hlabels hprobs in
theorem sum_sampleCount : (grouped.map fun g => g.metrics.sampleCount).sum = samples.length := by
  have hdistinct : (grouped.map GroupedMetrics.groupKey).Nodup :=
    (sorted_keys h).imp fun hlt => hlt.ne
  have hcount : ∀ g ∈ grouped, g.metrics.sampleCount =
      groupSum (fun entry => groupKeyFn entry.1) (fun _ => 1) (samples.zip yTrue) g.groupKey := by
    intro g hg
    rw [sampleCount_of_computed (metrics_of_computeMetricsByGroup hlabels hprobs h hg), ofGroup,
      List.length_map, groupSum, List.map_const', List.sum_replicate_nat, Nat.mul_one]
  have hcover : ∀ entry ∈ samples.zip yTrue,
      groupKeyFn entry.1 ∈ (grouped.map GroupedMetrics.groupKey).toFinset := by
    intro entry hentry
    rw [List.mem_toFinset, mem_keys_iff h]
    exact List.mem_map_of_mem (List.of_mem_zip hentry).1
  have hsum := sum_groupSum (fun _ => 1) hcover
  rw [List.sum_toFinset _ hdistinct, List.map_map] at hsum
  rw [List.map_congr_left hcount]
  refine hsum.trans ?_
  rw [List.map_const', List.sum_replicate_nat, Nat.mul_one, List.length_zip, ← hlabels,
    Nat.min_self]

end Groups

/-- Grouped metrics split the samples: the keys ascend and are those of the samples, each group
is measured on its own samples in their order, and no sample is missed or counted twice. -/
theorem grouped_metrics_split {F : Type} (np : Numpy) (sk : Sklearn)
    (samples : List (DatasetSample F)) (yTrue : List Label) (yProb : List PyFloat)
    (groupKeyFn : DatasetSample F → String) (decisionThreshold : PyFloat)
    {grouped : List GroupedMetrics} (hlabels : samples.length = yTrue.length)
    (hprobs : samples.length = yProb.length)
    (h : computeMetricsByGroup np sk samples yTrue yProb groupKeyFn decisionThreshold =
      .ok grouped) :
    (grouped.map GroupedMetrics.groupKey).Pairwise (· < ·) ∧
      (∀ k, k ∈ grouped.map GroupedMetrics.groupKey ↔ k ∈ samples.map groupKeyFn) ∧
      (∀ g ∈ grouped, computeClassificationMetrics np sk
        (ofGroup groupKeyFn samples yTrue g.groupKey)
        (ofGroup groupKeyFn samples yProb g.groupKey) decisionThreshold = .ok g.metrics) ∧
      (grouped.map fun g => g.metrics.sampleCount).sum = samples.length :=
  ⟨sorted_keys h, mem_keys_iff h,
    fun _ hg => metrics_of_computeMetricsByGroup hlabels hprobs h hg,
    sum_sampleCount hlabels hprobs h⟩

/-- The month of a sample, the first two days being the last of theirs. -/
def monthOf (s : DatasetSample ℚ) : String := if s.asOf ≤ 2 then "2026-01" else "2026-02"

/-- The samples of four days, two in each of two months. -/
theorem two_months_split :
    ∃ grouped, computeMetricsByGroup exactNumpy evenSklearn (dailySamples 1 [1, 2, 3, 4])
        [.int 0, .int 1, .int 1, .int 0] (List.replicate 4 (.finite (1 / 2))) monthOf
        (.finite (1 / 2)) = .ok grouped ∧
      grouped.map GroupedMetrics.groupKey = ["2026-01", "2026-02"] ∧
      (∀ g ∈ grouped, computeClassificationMetrics exactNumpy evenSklearn
        (ofGroup monthOf (dailySamples 1 [1, 2, 3, 4]) [.int 0, .int 1, .int 1, .int 0] g.groupKey)
        (ofGroup monthOf (dailySamples 1 [1, 2, 3, 4]) (List.replicate 4 (.finite (1 / 2)))
          g.groupKey) (.finite (1 / 2)) = .ok g.metrics) ∧
      (grouped.map fun g => g.metrics.sampleCount).sum = 4 := by
  obtain ⟨grouped, hgrouped, hkeys⟩ := bind_eq_ok_iff.mp (show (do
    let grouped ← computeMetricsByGroup exactNumpy evenSklearn (dailySamples 1 [1, 2, 3, 4])
      [.int 0, .int 1, .int 1, .int 0] (List.replicate 4 (.finite (1 / 2))) monthOf
      (.finite (1 / 2))
    return grouped.map GroupedMetrics.groupKey) = .ok ["2026-01", "2026-02"] by decide +kernel)
  obtain ⟨_, _, hmetrics, hcount⟩ :=
    grouped_metrics_split exactNumpy evenSklearn (dailySamples 1 [1, 2, 3, 4])
      [.int 0, .int 1, .int 1, .int 0] (List.replicate 4 (.finite (1 / 2))) monthOf
      (.finite (1 / 2)) rfl rfl hgrouped
  exact ⟨grouped, hgrouped, Except.ok.inj hkeys, hmetrics, hcount⟩

section Calibration

variable {α : Type}

/-- The deviation of the entries, by the bins of their samples. -/
def binDeviation (nBins : Nat) (entries : List (α × Sample)) : ℚ :=
  deviation (Finset.range nBins) (fun entry => binOf nBins entry.2)
    (fun entry => overconfidence entry.2) entries

theorem calibrationError_entries {entries : List (α × Sample)}
    (hprobs : ∀ entry ∈ entries, 0 ≤ entry.2.2 ∧ entry.2.2 ≤ 1) (hne : entries ≠ [])
    (nBins : Nat) :
    expectedCalibrationErrorIn exactBins (entries.map fun entry => entry.2.1)
        (entries.map fun entry => entry.2.2) nBins =
      .ok (binDeviation nBins entries / entries.length) := by
  have hsamples : ∀ x ∈ entries.map Prod.snd, 0 ≤ x.2 ∧ x.2 ≤ 1 :=
    List.forall_mem_map.mpr hprobs
  have h := expectedCalibrationErrorIn_exact hsamples (mt List.map_eq_nil_iff.mp hne) nBins
  rw [List.map_map, List.map_map, List.length_map, deviation_map] at h
  exact h

theorem binDeviation_le {key : α → String} (nBins : Nat) {entries : List (α × Sample)}
    {keys : List String} (hdistinct : keys.Nodup)
    (hcover : ∀ entry ∈ entries, key entry.1 ∈ keys) :
    binDeviation nBins entries ≤
      (keys.map fun k => binDeviation nBins (entries.filter fun entry => key entry.1 = k)).sum := by
  rw [← List.sum_toFinset _ hdistinct]
  exact deviation_le_sum_filter fun entry hentry => List.mem_toFinset.mpr (hcover entry hentry)

end Calibration

/-- In exact rationals the calibration error of the whole is at most the mean of those of the
groups, each weighted by how many of the samples it has. -/
theorem calibration_error_le_groups {α : Type} (key : α → String) {samples : List α}
    {yTrue yProb : List ℚ} (nBins : Nat) (hne : samples ≠ [])
    (hlabels : samples.length = yTrue.length) (hprobs : samples.length = yProb.length)
    (hunit : ∀ p ∈ yProb, 0 ≤ p ∧ p ≤ 1) {keys : List String} (hdistinct : keys.Nodup)
    (hkeys : ∀ k, k ∈ keys ↔ k ∈ samples.map key) :
    ∃ (whole : ℚ) (error : String → ℚ),
      expectedCalibrationErrorIn exactBins yTrue yProb nBins = .ok whole ∧
      (∀ k ∈ keys, expectedCalibrationErrorIn exactBins (ofGroup key samples yTrue k)
        (ofGroup key samples yProb k) nBins = .ok (error k)) ∧
      whole ≤ (keys.map fun k =>
        ((ofGroup key samples yTrue k).length : ℚ) / samples.length * error k).sum := by
  have hzip : samples.length = (yTrue.zip yProb).length := by
    rw [List.length_zip, ← hlabels, ← hprobs, Nat.min_self]
  -- The three arrays as columns of one list.
  obtain ⟨entries, hsamples, htrue, hprob⟩ : ∃ entries : List (α × Sample),
      samples = entries.map Prod.fst ∧ yTrue = entries.map (fun entry => entry.2.1) ∧
        yProb = entries.map fun entry => entry.2.2 := by
    have hpairs : (samples.zip (yTrue.zip yProb)).map Prod.snd = yTrue.zip yProb :=
      List.map_snd_zip hzip.ge
    have hfirst := congrArg (List.map Prod.fst) hpairs
    have hsecond := congrArg (List.map Prod.snd) hpairs
    rw [List.map_map, List.map_fst_zip (hlabels.symm.trans hprobs).le] at hfirst
    rw [List.map_map, List.map_snd_zip (hlabels.symm.trans hprobs).ge] at hsecond
    exact ⟨_, (List.map_fst_zip hzip.le).symm, hfirst.symm, hsecond.symm⟩
  subst hsamples htrue hprob
  have hne' : entries ≠ [] := mt List.map_eq_nil_iff.mpr hne
  have hprobs' : ∀ entry ∈ entries, 0 ≤ entry.2.2 ∧ entry.2.2 ≤ 1 :=
    List.forall_mem_map.mp hunit
  have hcover : ∀ entry ∈ entries, key entry.1 ∈ keys := fun entry hentry =>
    (hkeys _).mpr (List.mem_map_of_mem (List.mem_map_of_mem hentry))
  have hgroup : ∀ k ∈ keys, entries.filter (fun entry => key entry.1 = k) ≠ [] := by
    intro k hk
    obtain ⟨_, hsample, hkey⟩ := List.mem_map.mp ((hkeys k).mp hk)
    obtain ⟨entry, hentry, rfl⟩ := List.mem_map.mp hsample
    exact List.ne_nil_of_mem (List.mem_filter.mpr ⟨hentry, decide_eq_true hkey⟩)
  refine ⟨_, fun k => binDeviation nBins (entries.filter fun entry => key entry.1 = k) /
    (entries.filter fun entry => key entry.1 = k).length,
    calibrationError_entries hprobs' hne' nBins, fun k hk => ?_, ?_⟩
  · rw [ofGroup_map, ofGroup_map]
    exact calibrationError_entries
      (fun entry hentry => hprobs' entry (List.mem_of_mem_filter hentry)) (hgroup k hk) nBins
  · have hterm : ∀ k ∈ keys, ((ofGroup key (entries.map Prod.fst)
        (entries.map fun entry => entry.2.1) k).length : ℚ) / (entries.map Prod.fst).length *
          (binDeviation nBins (entries.filter fun entry => key entry.1 = k) /
            (entries.filter fun entry => key entry.1 = k).length) =
        binDeviation nBins (entries.filter fun entry => key entry.1 = k) *
          (entries.length : ℚ)⁻¹ := by
      intro k hk
      have hpos : ((entries.filter fun entry => key entry.1 = k).length : ℚ) ≠ 0 :=
        Nat.cast_ne_zero.mpr (mt List.eq_nil_of_length_eq_zero (hgroup k hk))
      rw [ofGroup_map, List.length_map, List.length_map, div_mul_div_comm,
        mul_comm (entries.length : ℚ), mul_div_mul_left _ _ hpos, div_eq_mul_inv]
    rw [List.map_congr_left hterm, List.sum_map_mul_right, ← div_eq_mul_inv]
    exact div_le_div_of_nonneg_right (binDeviation_le nBins hdistinct hcover) (Nat.cast_nonneg _)

/-- Two groups of one sample each, wrong by a half and by nothing. -/
theorem two_groups_bound :
    ∃ (whole : ℚ) (error : String → ℚ),
      expectedCalibrationErrorIn exactBins [0, 1] [1 / 2, 1] 2 = .ok whole ∧
      (∀ k ∈ ["a", "b"], expectedCalibrationErrorIn exactBins (ofGroup id ["a", "b"] [0, 1] k)
        (ofGroup id ["a", "b"] [1 / 2, 1] k) 2 = .ok (error k)) ∧
      whole ≤ (["a", "b"].map fun k => ((ofGroup id ["a", "b"] [(0 : ℚ), 1] k).length : ℚ) /
        ["a", "b"].length * error k).sum :=
  @calibration_error_le_groups String id ["a", "b"] [0, 1] [1 / 2, 1] 2 (by decide) rfl rfl
    (by norm_num) ["a", "b"] (by decide) (fun k => by simp)

end Models
end QuantPlatform
