import QuantPlatform.Python.Data

namespace QuantPlatform

variable {α : Type}

/-- `xs[i]`. -/
def item (xs : List α) (i : Int) : Except Exn α :=
  let position := if i < 0 then xs.length + i else i
  if position < 0 then .error (.other "IndexError")
  else
    match xs[position.toNat]? with
    | some x => .ok x
    | none => .error (.other "IndexError")

/-- `xs[start:]`. -/
def sliceFrom (xs : List α) (start : Int) : List α :=
  xs.drop (if start < 0 then xs.length + start else start).toNat

theorem item_natCast_eq_ok_iff {xs : List α} {n : Nat} {x : α} :
    item xs n = .ok x ↔ xs[n]? = some x := by
  have hnonneg : ¬ (n : Int) < 0 := Int.not_lt.mpr (Int.natCast_nonneg n)
  unfold item
  rw [if_neg hnonneg, if_neg hnonneg, Int.toNat_natCast]
  cases xs[n]? with
  | none => simp
  | some y => simp

theorem item_append_of_neg (older xs : List α) {i : Int} (hi : i < 0) (hlen : -i ≤ xs.length) :
    item (older ++ xs) i = item xs i := by
  have hnonneg : ¬ (xs.length : Int) + i < 0 := by omega
  have hnonneg' : ¬ ((older ++ xs).length : Int) + i < 0 := by
    rw [List.length_append]
    omega
  have hposition : (((older ++ xs).length : Int) + i).toNat =
      older.length + ((xs.length : Int) + i).toNat := by
    rw [List.length_append]
    omega
  unfold item
  simp only [if_pos hi, if_neg hnonneg, if_neg hnonneg', hposition,
    List.getElem?_append_right (Nat.le_add_right _ _), Nat.add_sub_cancel_left]

theorem sliceFrom_append_of_neg (older xs : List α) {start : Int} (hstart : start < 0)
    (hlen : -start ≤ xs.length) : sliceFrom (older ++ xs) start = sliceFrom xs start := by
  have hposition : (((older ++ xs).length : Int) + start).toNat =
      older.length + ((xs.length : Int) + start).toNat := by
    rw [List.length_append]
    omega
  unfold sliceFrom
  rw [if_pos hstart, if_pos hstart, hposition, List.drop_append, List.drop_eq_nil_of_le
    (Nat.le_add_right _ _), Nat.add_sub_cancel_left, List.nil_append]

theorem item_map {β : Type} (f : α → β) (xs : List α) (i : Int) :
    item (xs.map f) i = (item xs i).map f := by
  unfold item
  rw [List.length_map]
  dsimp only
  generalize (if i < 0 then (xs.length : Int) + i else i) = position
  by_cases hposition : position < 0
  · rw [if_pos hposition, if_pos hposition]
    rfl
  · rw [if_neg hposition, if_neg hposition, List.getElem?_map]
    cases xs[position.toNat]? with
    | none => rfl
    | some x => rfl

theorem sliceFrom_map {β : Type} (f : α → β) (xs : List α) (start : Int) :
    sliceFrom (xs.map f) start = (sliceFrom xs start).map f := by
  unfold sliceFrom
  rw [List.length_map, List.map_drop]

end QuantPlatform
