/-
Weighted items in groups, and how far the groups are from balanced.

Each item has a weight and the key of its group; a group's sum is that of the weights of its
items, and the deviation of a grouping adds up the sizes of those sums.  Groups cancel within
themselves only, so a grouping that is coarser deviates less, and the whole list, taken as
one group, the least.
-/
import Mathlib.Algebra.BigOperators.Group.Finset.Piecewise
import Mathlib.Algebra.Order.BigOperators.Group.Finset
import Mathlib.Algebra.Order.BigOperators.Group.List

namespace Groups

variable {α κ κ' M : Type*} [DecidableEq κ] [DecidableEq κ']

section Sums

variable [AddCommMonoid M] (key : α → κ) (weight : α → M)

def groupSum (items : List α) (k : κ) : M :=
  ((items.filter fun x => key x = k).map weight).sum

@[simp] theorem groupSum_nil (k : κ) : groupSum key weight [] k = 0 := rfl

theorem groupSum_cons (x : α) (items : List α) (k : κ) :
    groupSum key weight (x :: items) k =
      (if key x = k then weight x else 0) + groupSum key weight items k := by
  unfold groupSum
  rw [List.filter_cons]
  by_cases hk : key x = k
  · rw [if_pos (decide_eq_true hk), if_pos hk, List.map_cons, List.sum_cons]
  · rw [if_neg (mt of_decide_eq_true hk), if_neg hk, zero_add]

theorem groupSum_perm {items items' : List α} (h : items.Perm items') (k : κ) :
    groupSum key weight items k = groupSum key weight items' k :=
  ((h.filter _).map weight).sum_eq

theorem groupSum_map {β : Type*} (f : β → α) (items : List β) (k : κ) :
    groupSum key weight (items.map f) k =
      groupSum (fun x => key (f x)) (fun x => weight (f x)) items k := by
  rw [groupSum, groupSum, List.filter_map, List.map_map]
  rfl

variable {key} {keys : Finset κ}

/-- The sums of the groups are the sum of all. -/
theorem sum_groupSum {items : List α} (h : ∀ x ∈ items, key x ∈ keys) :
    ∑ k ∈ keys, groupSum key weight items k = (items.map weight).sum := by
  induction items with
  | nil => simp
  | cons x items ih =>
    obtain ⟨hx, hrest⟩ := List.forall_mem_cons.mp h
    rw [List.map_cons, List.sum_cons, ← ih hrest]
    simp only [groupSum_cons, Finset.sum_add_distrib, Finset.sum_ite_eq, if_pos hx]

/-- A coarser group adds up the groups it is made of. -/
theorem groupSum_coarser {items : List α} (h : ∀ x ∈ items, key x ∈ keys) (g : κ → κ') (k' : κ') :
    groupSum (fun x => g (key x)) weight items k' =
      ∑ k ∈ keys with g k = k', groupSum key weight items k := by
  induction items with
  | nil => simp
  | cons x items ih =>
    obtain ⟨hx, hrest⟩ := List.forall_mem_cons.mp h
    rw [groupSum_cons, ih hrest]
    simp only [groupSum_cons, Finset.sum_add_distrib, Finset.sum_ite_eq, Finset.mem_filter, hx,
      true_and]

end Sums

section Deviation

variable [AddCommGroup M] [LinearOrder M] [IsOrderedAddMonoid M] {weight : α → M}

def deviation (keys : Finset κ) (key : α → κ) (weight : α → M) (items : List α) : M :=
  ∑ k ∈ keys, |groupSum key weight items k|

variable {keys : Finset κ} {key : α → κ} {items : List α}

omit [IsOrderedAddMonoid M] in
theorem deviation_perm {items' : List α} (h : items.Perm items') :
    deviation keys key weight items = deviation keys key weight items' :=
  Finset.sum_congr rfl fun k _ => congrArg abs (groupSum_perm key weight h k)

omit [IsOrderedAddMonoid M] in
theorem deviation_map {β : Type*} (f : β → α) (items : List β) :
    deviation keys key weight (items.map f) =
      deviation keys (fun x => key (f x)) (fun x => weight (f x)) items :=
  Finset.sum_congr rfl fun k _ => congrArg abs (groupSum_map key weight f items k)

/-- No grouping deviates less than the whole. -/
theorem abs_sum_le_deviation (h : ∀ x ∈ items, key x ∈ keys) :
    |(items.map weight).sum| ≤ deviation keys key weight items := by
  rw [← sum_groupSum weight h]
  exact Finset.abs_sum_le_sum_abs _ _

theorem abs_groupSum_le (items : List α) (k : κ) :
    |groupSum key weight items k| ≤ groupSum key (fun x => |weight x|) items k := by
  induction items with
  | nil => simp
  | cons x items ih =>
    rw [groupSum_cons, groupSum_cons]
    refine (abs_add_le _ _).trans (add_le_add ?_ ih)
    by_cases hk : key x = k
    · rw [if_pos hk, if_pos hk]
    · rw [if_neg hk, if_neg hk, abs_zero]

/-- Every grouping deviates at most by the sizes of the weights. -/
theorem deviation_le (h : ∀ x ∈ items, key x ∈ keys) :
    deviation keys key weight items ≤ (items.map fun x => |weight x|).sum := by
  rw [← sum_groupSum _ h]
  exact Finset.sum_le_sum fun k _ => abs_groupSum_le items k

variable (weight) in
/-- A coarser grouping deviates less. -/
theorem deviation_coarser {keys' : Finset κ'} (h : ∀ x ∈ items, key x ∈ keys) {g : κ → κ'}
    (hg : ∀ k ∈ keys, g k ∈ keys') :
    deviation keys' (fun x => g (key x)) weight items ≤ deviation keys key weight items := by
  calc deviation keys' (fun x => g (key x)) weight items
      = ∑ k' ∈ keys', |∑ k ∈ keys with g k = k', groupSum key weight items k| :=
        Finset.sum_congr rfl fun k' _ => congrArg abs (groupSum_coarser weight h g k')
    _ ≤ ∑ k' ∈ keys', ∑ k ∈ keys with g k = k', |groupSum key weight items k| :=
        Finset.sum_le_sum fun k' _ => Finset.abs_sum_le_sum_abs _ _
    _ = deviation keys key weight items := Finset.sum_fiberwise_of_maps_to hg _

/-- Items that are first sorted into other groups deviate more. -/
theorem deviation_le_sum_filter {outer : α → κ'} {outers : Finset κ'}
    (h : ∀ x ∈ items, outer x ∈ outers) :
    deviation keys key weight items ≤
      ∑ g ∈ outers, deviation keys key weight (items.filter fun x => outer x = g) := by
  have hsplit : ∀ k, groupSum key weight items k =
      ∑ g ∈ outers, groupSum key weight (items.filter fun x => outer x = g) k := by
    intro k
    refine (sum_groupSum weight fun x hx => h x (List.mem_of_mem_filter hx)).symm.trans
      (Finset.sum_congr rfl fun g _ => ?_)
    rw [groupSum, groupSum, List.filter_comm]
  calc deviation keys key weight items
      = ∑ k ∈ keys, |∑ g ∈ outers, groupSum key weight (items.filter fun x => outer x = g) k| :=
        Finset.sum_congr rfl fun k _ => congrArg abs (hsplit k)
    _ ≤ ∑ k ∈ keys, ∑ g ∈ outers,
          |groupSum key weight (items.filter fun x => outer x = g) k| :=
        Finset.sum_le_sum fun k _ => Finset.abs_sum_le_sum_abs _ _
    _ = ∑ g ∈ outers, deviation keys key weight (items.filter fun x => outer x = g) :=
        Finset.sum_comm

end Deviation

end Groups
