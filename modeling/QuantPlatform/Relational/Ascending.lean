import QuantPlatform.Relational.Query
import Mathlib.Data.Finset.Sort
import Mathlib.Data.List.Count

namespace Relational

variable {ρ τ : Type*} [LinearOrder τ] {col : ρ → τ}

/-- The column does not decrease down the rows. -/
abbrev Ascending (col : ρ → τ) (rows : List ρ) : Prop :=
  rows.Pairwise fun a b => col a ≤ col b

/-- No two rows share a value of the column. -/
abbrev StrictlyAscending (col : ρ → τ) (rows : List ρ) : Prop :=
  rows.Pairwise fun a b => col a < col b

theorem strictlyAscending_iff_nodup {rows : List ρ} (h : Ascending col rows) :
    StrictlyAscending col rows ↔ (rows.map col).Nodup := by
  unfold List.Nodup
  rw [List.pairwise_map]
  constructor
  · intro hlt
    exact hlt.imp ne_of_lt
  · intro hne
    exact (h.and hne).imp fun hab => lt_of_le_of_ne hab.1 hab.2

/-- Strictly ascending rows are known by what they are, and their column by the
set of its values. -/
theorem StrictlyAscending.eq_of_mem_iff {rows rows' : List ρ} (h : StrictlyAscending col rows)
    (h' : StrictlyAscending col rows') (hmem : ∀ r, r ∈ rows ↔ r ∈ rows') : rows = rows' := by
  have hnodup : ∀ {l : List ρ}, StrictlyAscending col l → l.Nodup := fun hl =>
    hl.imp fun hab heq => absurd (congrArg col heq) (ne_of_lt hab)
  have hperm : rows.Perm rows' := (List.perm_ext_iff_of_nodup (hnodup h) (hnodup h')).mpr hmem
  exact hperm.eq_of_pairwise (fun _ _ _ _ hab hba => absurd hba (lt_asymm hab)) h h'

/-- Results that agree up to ties agree where there are none. -/
theorem SameUpToTies.eq_of_strictlyAscending {rows rows' : List ρ}
    (h : SameUpToTies col rows rows') (hstrict : StrictlyAscending col rows) : rows = rows' := by
  have hstrict' : StrictlyAscending col rows' := by
    have hcols : (rows.map col).Pairwise (· < ·) := List.pairwise_map.mpr hstrict
    rw [h.2] at hcols
    exact List.pairwise_map.mp hcols
  exact hstrict.eq_of_mem_iff hstrict' fun r => h.1.mem_iff

theorem StrictlyAscending.map_eq_sort {rows : List ρ} (h : StrictlyAscending col rows) :
    rows.map col = (rows.map col).toFinset.sort := by
  have hlt : (rows.map col).Pairwise (· < ·) := List.pairwise_map.mpr h
  have hsort : ((rows.map col).toFinset.sort).Pairwise (· < ·) :=
    (Finset.sortedLT_sort _).pairwise
  have hmem : ∀ t, t ∈ rows.map col ↔ t ∈ (rows.map col).toFinset.sort := by
    intro t
    rw [Finset.mem_sort, List.mem_toFinset]
  exact hlt.eq_of_mem_iff hsort hmem

/-- Ascending rows are those below a bound, then the others. -/
theorem Ascending.filter_append_filter {rows : List ρ} (h : Ascending col rows) (bound : τ) :
    (rows.filter fun r => col r < bound) ++ (rows.filter fun r => bound ≤ col r) = rows := by
  induction rows with
  | nil => rfl
  | cons r rest ih =>
    rw [Ascending, List.pairwise_cons] at h
    by_cases hr : col r < bound
    · rw [List.filter_cons_of_pos (by simpa using hr),
        List.filter_cons_of_neg (by simpa using hr), List.cons_append, ih h.2]
    · -- No row after `r` is below the bound either.
      have hrest : rest.filter (fun s => col s < bound) = [] := by
        rw [List.filter_eq_nil_iff]
        intro s hs
        simpa using le_trans (not_lt.mp hr) (h.1 s hs)
      have hall := ih h.2
      rw [hrest, List.nil_append] at hall
      rw [List.filter_cons_of_neg (by simpa using hr), hrest, List.nil_append,
        List.filter_cons_of_pos (by simpa using hr), hall]

/-! ## Positions and values -/

/-- `t` is the `n`-th of the values after `origin`. -/
def IsNthAfter (values : Finset τ) (origin : τ) (n : Nat) (t : τ) : Prop :=
  t ∈ values ∧ (values.filter fun s => origin < s ∧ s ≤ t).card = n

instance (values : Finset τ) (origin : τ) (n : Nat) (t : τ) :
    Decidable (IsNthAfter values origin n t) :=
  inferInstanceAs (Decidable (_ ∧ _))

theorem Ascending.le_of_getElem? {rows : List ρ} (h : Ascending col rows) {i j : Nat}
    (hij : i ≤ j) {a b : ρ} (ha : rows[i]? = some a) (hb : rows[j]? = some b) :
    col a ≤ col b := by
  obtain ⟨hi, rfl⟩ := List.getElem?_eq_some_iff.mp ha
  obtain ⟨hj, rfl⟩ := List.getElem?_eq_some_iff.mp hb
  rcases Nat.lt_or_eq_of_le hij with hlt | heq
  · exact List.pairwise_iff_getElem.mp h i j hi hj hlt
  · subst heq
    exact le_rfl

theorem mem_take_iff_getElem? {rows : List ρ} {n : Nat} {r : ρ} :
    r ∈ rows.take n ↔ ∃ i < n, rows[i]? = some r := by
  rw [List.mem_iff_getElem?]
  refine exists_congr fun i => ?_
  rcases Nat.lt_or_ge i n with hlt | hge
  · rw [List.getElem?_take_of_lt hlt, and_iff_right hlt]
  · rw [List.getElem?_take_eq_none hge]
    simp [Nat.not_lt.mpr hge]

/-- The values after the first row's, up to that of row `n`, are those of the
first `n + 1` rows without the first one's. -/
theorem Ascending.values_between {rows : List ρ} (h : Ascending col rows) {n : Nat}
    {first last : ρ} (hfirst : rows[0]? = some first) (hlast : rows[n]? = some last)
    {values : Finset τ}
    (hvalues : ∀ t, col first ≤ t → t ≤ col last → (t ∈ values ↔ ∃ r ∈ rows, col r = t)) :
    (values.filter fun s => col first < s ∧ s ≤ col last) =
      ((rows.take (n + 1)).map col).toFinset.erase (col first) := by
  ext t
  rw [Finset.mem_filter, Finset.mem_erase, List.mem_toFinset, List.mem_map]
  constructor
  · intro ht
    obtain ⟨hmem, hafter, hupto⟩ := ht
    refine ⟨ne_of_gt hafter, ?_⟩
    obtain ⟨r, hr, rfl⟩ := (hvalues t hafter.le hupto).mp hmem
    obtain ⟨i, hi⟩ := List.mem_iff_getElem?.mp hr
    rcases Nat.lt_or_ge n i with hni | hin
    · -- A row further down with no greater value has the value of row `n`.
      have heq : col last = col r := le_antisymm (h.le_of_getElem? hni.le hlast hi) hupto
      exact ⟨last, mem_take_iff_getElem?.mpr ⟨n, Nat.lt_succ_self n, hlast⟩, heq⟩
    · exact ⟨r, mem_take_iff_getElem?.mpr ⟨i, Nat.lt_succ_of_le hin, hi⟩, rfl⟩
  · intro ht
    obtain ⟨hne, r, hr, rfl⟩ := ht
    obtain ⟨i, hin, hi⟩ := mem_take_iff_getElem?.mp hr
    have hafter := h.le_of_getElem? (Nat.zero_le i) hfirst hi
    have hupto := h.le_of_getElem? (Nat.lt_succ_iff.mp hin) hi hlast
    exact ⟨(hvalues _ hafter hupto).mpr ⟨r, List.mem_of_getElem? hi, rfl⟩,
      lt_of_le_of_ne hafter (Ne.symm hne), hupto⟩

/-- Row `n` has the `n`-th value after the first row's exactly when no two of
the rows up to it share a value. -/
theorem Ascending.isNthAfter_iff {rows : List ρ} (h : Ascending col rows) {n : Nat}
    {first last : ρ} (hfirst : rows[0]? = some first) (hlast : rows[n]? = some last)
    {values : Finset τ}
    (hvalues : ∀ t, col first ≤ t → t ≤ col last → (t ∈ values ↔ ∃ r ∈ rows, col r = t)) :
    IsNthAfter values (col first) n (col last) ↔ StrictlyAscending col (rows.take (n + 1)) := by
  have hmem : col last ∈ values :=
    (hvalues _ (h.le_of_getElem? (Nat.zero_le n) hfirst hlast) le_rfl).mpr
      ⟨last, List.mem_of_getElem? hlast, rfl⟩
  have hfirstMem : col first ∈ ((rows.take (n + 1)).map col).toFinset := by
    rw [List.mem_toFinset]
    exact List.mem_map_of_mem (mem_take_iff_getElem?.mpr ⟨0, Nat.zero_lt_succ n, hfirst⟩)
  have hlength : ((rows.take (n + 1)).map col).length = n + 1 := by
    have hn := (List.getElem?_eq_some_iff.mp hlast).1
    rw [List.length_map, List.length_take]
    omega
  have hpos : 0 < ((rows.take (n + 1)).map col).toFinset.card := Finset.card_pos.mpr ⟨_, hfirstMem⟩
  unfold IsNthAfter
  rw [and_iff_right hmem, h.values_between hfirst hlast hvalues,
    Finset.card_erase_of_mem hfirstMem,
    strictlyAscending_iff_nodup (h.sublist (List.take_sublist _ _))]
  constructor
  · intro hcard
    have hsucc : ((rows.take (n + 1)).map col).toFinset.card =
        ((rows.take (n + 1)).map col).length := by omega
    exact Multiset.toFinset_card_eq_card_iff_nodup.mp hsucc
  · intro hnodup
    rw [List.toFinset_card_of_nodup hnodup, hlength, Nat.add_sub_cancel]

/-- A value is counted from itself on. -/
theorem card_between_lt {values : Finset τ} {origin a b : τ} (hb : b ∈ values)
    (horigin : origin < b) (hab : a < b) :
    (values.filter fun s => origin < s ∧ s ≤ a).card <
      (values.filter fun s => origin < s ∧ s ≤ b).card := by
  refine Finset.card_lt_card ?_
  rw [Finset.ssubset_iff_of_subset]
  · refine ⟨b, Finset.mem_filter.mpr ⟨hb, horigin, le_rfl⟩, ?_⟩
    intro hmem
    exact absurd hab (not_lt.mpr (Finset.mem_filter.mp hmem).2.2)
  · intro c hc
    obtain ⟨hmem, hafter, hupto⟩ := Finset.mem_filter.mp hc
    exact Finset.mem_filter.mpr ⟨hmem, hafter, hupto.trans hab.le⟩

theorem IsNthAfter.origin_lt {values : Finset τ} {origin t : τ} {n : Nat} (hn : 0 < n)
    (h : IsNthAfter values origin n t) : origin < t := by
  by_contra hnot
  have hempty : (values.filter fun s => origin < s ∧ s ≤ t) = ∅ := by
    rw [Finset.filter_eq_empty_iff]
    intro s _ hs
    exact hnot (lt_of_lt_of_le hs.1 hs.2)
  have hcard := h.2
  rw [hempty, Finset.card_empty] at hcard
  omega

theorem IsNthAfter.unique {values : Finset τ} {origin s t : τ} {n : Nat} (hn : 0 < n)
    (hs : IsNthAfter values origin n s) (ht : IsNthAfter values origin n t) : s = t := by
  have hle : ∀ {a b : τ}, IsNthAfter values origin n a → IsNthAfter values origin n b → b ≤ a := by
    intro a b ha hb
    by_contra hlt
    have hcards := card_between_lt hb.1 (hb.origin_lt hn) (not_le.mp hlt)
    rw [ha.2, hb.2] at hcards
    exact absurd hcards (Nat.lt_irrefl n)
  exact le_antisymm (hle ht hs) (hle hs ht)

/-- Rows that share values only hold the count back: row `n` is not past the
`n`-th value. -/
theorem Ascending.le_nth {rows : List ρ} (h : Ascending col rows) {n : Nat} (hn : 0 < n)
    {first last : ρ} (hfirst : rows[0]? = some first) (hlast : rows[n]? = some last)
    {values : Finset τ}
    (hvalues : ∀ t, col first ≤ t → t ≤ col last → (t ∈ values ↔ ∃ r ∈ rows, col r = t))
    {t : τ} (ht : IsNthAfter values (col first) n t) : col last ≤ t := by
  by_contra hpast
  have hfirstMem : col first ∈ ((rows.take (n + 1)).map col).toFinset := by
    rw [List.mem_toFinset]
    exact List.mem_map_of_mem (mem_take_iff_getElem?.mpr ⟨0, Nat.zero_lt_succ n, hfirst⟩)
  have hupper : (values.filter fun s => col first < s ∧ s ≤ col last).card ≤ n := by
    have hle := List.toFinset_card_le ((rows.take (n + 1)).map col)
    rw [List.length_map, List.length_take] at hle
    rw [h.values_between hfirst hlast hvalues, Finset.card_erase_of_mem hfirstMem]
    omega
  have hafter : col first < col last := (ht.origin_lt hn).trans (not_le.mp hpast)
  have hmem : col last ∈ values :=
    (hvalues _ hafter.le le_rfl).mpr ⟨last, List.mem_of_getElem? hlast, rfl⟩
  have hcards := card_between_lt hmem hafter (not_le.mp hpast)
  rw [ht.2] at hcards
  omega

/-- Cutting ascending rows at `k` separates their values exactly when no value
has rows on both sides: fewer than `k` rows below it and more than `k` up to it. -/
theorem Ascending.cut_separates_iff {rows : List ρ} (h : Ascending col rows) {k : Nat}
    (hk : k ≤ rows.length) :
    (∀ a ∈ rows.take k, ∀ b ∈ rows.drop k, col a < col b) ↔
      ∀ t, ¬ (rows.countP (fun r => col r < t) < k ∧ k < rows.countP fun r => col r ≤ t) := by
  have hcut : rows.Pairwise fun a b => col a ≤ col b := h
  rw [← List.take_append_drop k rows, List.pairwise_append] at hcut
  have hlength : (rows.take k).length = k := by
    rw [List.length_take]
    omega
  have hcount : ∀ p : ρ → Bool,
      rows.countP p = (rows.take k).countP p + (rows.drop k).countP p := by
    intro p
    rw [← List.countP_append, List.take_append_drop]
  constructor
  · intro hsep t hstraddle
    obtain ⟨hbelow, hupto⟩ := hstraddle
    have ha : ∃ a ∈ rows.take k, t ≤ col a := by
      by_contra hnone
      have hall : (rows.take k).countP (fun r => decide (col r < t)) = k := by
        rw [List.countP_eq_length.mpr, hlength]
        intro a ha
        simpa using fun hle => hnone ⟨a, ha, hle⟩
      rw [hcount] at hbelow
      omega
    have hb : ∃ b ∈ rows.drop k, col b ≤ t := by
      by_contra hnone
      have hall : (rows.drop k).countP (fun r => decide (col r ≤ t)) = 0 := by
        rw [List.countP_eq_zero]
        intro b hb
        simpa using fun hle => hnone ⟨b, hb, hle⟩
      have hle := List.countP_le_length (p := fun r => decide (col r ≤ t)) (l := rows.take k)
      rw [hcount] at hupto
      omega
    obtain ⟨a, ha, hta⟩ := ha
    obtain ⟨b, hb, hbt⟩ := hb
    exact absurd (hsep a ha b hb) (not_lt.mpr (hbt.trans hta))
  · intro hnone a ha b hb
    by_contra hnot
    have hle : col a ≤ col b := hcut.2.2 a ha b hb
    have heq : col a = col b := le_antisymm hle (not_lt.mp hnot)
    refine hnone (col a) ⟨?_, ?_⟩
    · -- Nothing behind the cut is below `a`, and `a` itself is not.
      have hlate : (rows.drop k).countP (fun r => decide (col r < col a)) = 0 := by
        rw [List.countP_eq_zero]
        intro c hc
        simpa using hcut.2.2 a ha c hc
      have hearly : (rows.take k).countP (fun r => decide (col r < col a)) <
          (rows.take k).length := by
        rw [List.countP_lt_length_iff]
        exact ⟨a, ha, by simp⟩
      rw [hcount]
      omega
    · have hearly : (rows.take k).countP (fun r => decide (col r ≤ col a)) = k := by
        rw [List.countP_eq_length.mpr, hlength]
        intro c hc
        simpa [heq] using hcut.2.2 c hc b hb
      have hlate : 0 < (rows.drop k).countP (fun r => decide (col r ≤ col a)) := by
        rw [List.countP_pos_iff]
        exact ⟨b, hb, by simp [heq]⟩
      rw [hcount]
      omega

/-! ## Results that agree below a bound -/

/-- The rows below a bound come before any row that is not. -/
theorem Ascending.length_filter_lt_le {rows : List ρ} (h : Ascending col rows) {n : Nat} {last : ρ}
    (hlast : rows[n]? = some last) {bound : τ} (hbound : bound ≤ col last) :
    (rows.filter fun r => col r < bound).length ≤ n := by
  by_contra hlong
  have hget : (rows.filter fun r => col r < bound)[n]? = some last := by
    rw [← hlast]
    conv => rhs; rw [← h.filter_append_filter bound]
    rw [List.getElem?_append_left (not_le.mp hlong)]
  have hbelow : col last < bound := by
    simpa using (List.mem_filter.mp (List.mem_of_getElem? hget)).2
  exact absurd hbound (not_le.mpr hbelow)

theorem Ascending.lt_length_filter_lt {rows : List ρ} (h : Ascending col rows) {n : Nat} {last : ρ}
    (hlast : rows[n]? = some last) {bound : τ} (hbound : col last < bound) :
    n < (rows.filter fun r => col r < bound).length := by
  by_contra hshort
  have hget : (rows.filter fun r => bound ≤ col r)[
      n - (rows.filter fun r => col r < bound).length]? = some last := by
    rw [← hlast]
    conv => rhs; rw [← h.filter_append_filter bound]
    rw [List.getElem?_append_right (not_lt.mp hshort)]
  have hge : bound ≤ col last := by
    simpa using (List.mem_filter.mp (List.mem_of_getElem? hget)).2
  exact absurd hbound (not_lt.mpr hge)

/-- Two selections that agree on the rows below a bound: an arrangement of the
one, and then some arrangement of the other, begin with the same `n + 1` rows when
row `n` is below the bound. -/
theorem exists_prefix_arrangement (o o' : OrderBy ρ fun a b => col a ≤ col b)
    {selected selected' : List ρ} {bound : τ}
    (hagree : (selected.filter fun r => col r < bound).Perm
      (selected'.filter fun r => col r < bound))
    {n : Nat} {last : ρ} (hlast : (o.arrange selected)[n]? = some last)
    (hbelow : col last < bound) :
    ∃ order : OrderBy ρ (fun a b => col a ≤ col b),
      (order.arrange selected').take (n + 1) = (o.arrange selected).take (n + 1) := by
  have hsorted : Ascending col (o.arrange selected) := o.sorted selected
  have hsorted' : Ascending col (o'.arrange selected') := o'.sorted selected'
  let early := (o.arrange selected).filter fun r => col r < bound
  let late := (o'.arrange selected').filter fun r => bound ≤ col r
  have hperm : (early ++ late).Perm selected' := by
    have hearly : early.Perm ((o'.arrange selected').filter fun r => col r < bound) :=
      ((o.perm selected).filter _).trans (hagree.trans ((o'.perm selected').filter _).symm)
    have happend := hearly.append_right late
    rw [hsorted'.filter_append_filter bound] at happend
    exact happend.trans (o'.perm selected')
  have hpairwise : (early ++ late).Pairwise fun a b => col a ≤ col b := by
    rw [List.pairwise_append]
    refine ⟨hsorted.sublist List.filter_sublist, hsorted'.sublist List.filter_sublist, ?_⟩
    intro a ha b hb
    have ha' : col a < bound := by simpa using (List.mem_filter.mp ha).2
    have hb' : bound ≤ col b := by simpa using (List.mem_filter.mp hb).2
    exact (lt_of_lt_of_le ha' hb').le
  obtain ⟨order, horder⟩ := o'.exists_arrange_eq hperm hpairwise
  refine ⟨order, ?_⟩
  -- The first `n + 1` rows of the one are among those below the bound.
  have hlength : n + 1 ≤ early.length := hsorted.lt_length_filter_lt hlast hbelow
  calc (order.arrange selected').take (n + 1)
      = (early ++ late).take (n + 1) := by rw [horder]
    _ = early.take (n + 1) := List.take_append_of_le_length hlength
    _ = (o.arrange selected).take (n + 1) := by
        conv => rhs; rw [← hsorted.filter_append_filter bound]
        rw [List.take_append_of_le_length hlength]

end Relational
