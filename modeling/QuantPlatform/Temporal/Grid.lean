import Mathlib.Algebra.Order.Field.Basic
import Mathlib.Algebra.Order.Floor.Semiring
import Mathlib.Data.List.Dedup
import Mathlib.Data.Set.Card

namespace Temporal

section Points

variable {K : Type*} [Field K] [LinearOrder K]

/-- The points of a span, by their number: the `k`-th lies `k` steps from its start. -/
def gridPoints (step span : K) : Set ℕ := { k | k * step ≤ span }

theorem mem_gridPoints {step span : K} {k : ℕ} : k ∈ gridPoints step span ↔ k * step ≤ span :=
  Iff.rfl

variable [IsStrictOrderedRing K] [FloorSemiring K]

theorem gridPoints_eq_range {step span : K} (hstep : 0 < step) (hspan : 0 ≤ span) :
    gridPoints step span = Finset.range (⌊span / step⌋₊ + 1) := by
  ext k
  rw [mem_gridPoints, Finset.mem_coe, Finset.mem_range, Nat.lt_succ_iff,
    Nat.le_floor_iff (div_nonneg hspan hstep.le), le_div_iff₀ hstep]

end Points

section Covering

variable {α : Type*} [DecidableEq α] {points : Finset α} {entries : List α}

/-- The points that are left and the ones that are covered. -/
theorem card_sdiff_add_dedup (hentries : ∀ a ∈ entries, a ∈ points) :
    (points \ entries.toFinset).card + entries.dedup.length = points.card := by
  have hsubset : entries.toFinset ⊆ points := fun a ha => hentries a (List.mem_toFinset.mp ha)
  rw [← List.card_toFinset, Finset.card_sdiff_add_card_eq_card hsubset]

/-- Entries count as points exactly when no point has two entries or no point is left. -/
theorem card_sub_length_eq_iff (hentries : ∀ a ∈ entries, a ∈ points) :
    points.card - entries.length = (points \ entries.toFinset).card ↔
      points ⊆ entries.toFinset ∨ entries.Nodup := by
  have hcount := card_sdiff_add_dedup hentries
  have hdedup : entries.dedup.length ≤ entries.length := (List.dedup_sublist entries).length_le
  rw [← Finset.sdiff_eq_empty_iff_subset, ← Finset.card_eq_zero, ← List.dedup_eq_self]
  constructor
  · intro h
    by_cases hleft : (points \ entries.toFinset).card = 0
    · exact Or.inl hleft
    · exact Or.inr ((List.dedup_sublist entries).eq_of_length (by omega))
  · rintro (hleft | hnodup)
    · omega
    · rw [hnodup] at hcount
      omega

end Covering

end Temporal
