import QuantPlatform.Python.Data
import Mathlib.Data.Prod.Lex

namespace QuantPlatform
namespace Decimal

/-- Where the decimal lies among the others. -/
def place (d : Decimal) : Option (Int ×ₗ ℚ) := d.rank.map toLex

variable {a b c : Decimal}

theorem compare_of_places {x y : Int ×ₗ ℚ} (ha : a.place = some x) (hb : b.place = some y) :
    a.compare b = some (if x < y then .lt else if x = y then .eq else .gt) := by
  obtain ⟨⟨i, p⟩, hi, rfl⟩ := Option.map_eq_some_iff.mp ha
  obtain ⟨⟨j, q⟩, hj, rfl⟩ := Option.map_eq_some_iff.mp hb
  unfold compare
  rw [hi, hj]
  simp only [Prod.Lex.toLex_lt_toLex, toLex_inj, Prod.mk.injEq]

theorem compare_eq_none (h : a.place = none ∨ b.place = none) : a.compare b = none := by
  unfold compare
  rcases h with h | h
  · rw [Option.map_eq_none_iff.mp h]
  · rw [Option.map_eq_none_iff.mp h]
    cases a.rank with
    | none => rfl
    | some x => rfl

/-- A comparison that returns compares places: by `p`, if that is what its test amounts to. -/
theorem ordered_eq_ok_iff_places {test : Ordering → Bool} {p : Int ×ₗ ℚ → Int ×ₗ ℚ → Prop}
    [∀ x y, Decidable (p x y)]
    (htest : ∀ x y, test (if x < y then .lt else if x = y then .eq else .gt) = decide (p x y))
    {answer : Bool} : ordered test a b = .ok answer ↔
      ∃ x y, a.place = some x ∧ b.place = some y ∧ decide (p x y) = answer := by
  unfold ordered
  constructor
  · intro h
    cases ha : a.place with
    | none =>
      rw [compare_eq_none (Or.inl ha)] at h
      cases h
    | some x =>
      cases hb : b.place with
      | none =>
        rw [compare_eq_none (Or.inr hb)] at h
        cases h
      | some y =>
        rw [compare_of_places ha hb] at h
        exact ⟨x, y, rfl, rfl, (htest x y).symm.trans (Except.ok.inj h)⟩
  · rintro ⟨x, y, ha, hb, rfl⟩
    rw [compare_of_places ha hb]
    exact congrArg Except.ok (htest x y)

section Comparisons

variable {answer : Bool}

theorem lt_eq_ok_iff : a.lt b = .ok answer ↔
    ∃ x y, a.place = some x ∧ b.place = some y ∧ decide (x < y) = answer := by
  refine ordered_eq_ok_iff_places fun x y => ?_
  rcases lt_trichotomy x y with h | h | h
  · simp [h]
  · simp [h]
  · simp [h.not_gt, h.ne']

theorem gt_eq_ok_iff : a.gt b = .ok answer ↔
    ∃ x y, a.place = some x ∧ b.place = some y ∧ decide (y < x) = answer := by
  refine ordered_eq_ok_iff_places fun x y => ?_
  rcases lt_trichotomy x y with h | h | h
  · simp [h, h.not_gt]
  · simp [h]
  · simp [h, h.not_gt, h.ne']

theorem le_eq_ok_iff : a.le b = .ok answer ↔
    ∃ x y, a.place = some x ∧ b.place = some y ∧ decide (x ≤ y) = answer := by
  refine ordered_eq_ok_iff_places fun x y => ?_
  rcases lt_trichotomy x y with h | h | h
  · simp [h, h.le]
  · simp [h]
  · simp [h, h.not_gt, h.ne']

theorem ge_eq_ok_iff : a.ge b = .ok answer ↔
    ∃ x y, a.place = some x ∧ b.place = some y ∧ decide (y ≤ x) = answer := by
  refine ordered_eq_ok_iff_places fun x y => ?_
  rcases lt_trichotomy x y with h | h | h
  · simp [h]
  · simp [h]
  · simp [h.le, h.not_gt, h.ne']

end Comparisons

/-- The decimals compare, and `a` is not above `b`. -/
def AtMost (a b : Decimal) : Prop := ∃ x y, a.place = some x ∧ b.place = some y ∧ x ≤ y

theorem AtMost.ge (h : AtMost a b) (hge : c.ge b = .ok true) : c.ge a = .ok true := by
  obtain ⟨x, y, ha, hb, hle⟩ := h
  obtain ⟨z, y', hc, hb', hyz⟩ := ge_eq_ok_iff.mp hge
  cases hb.symm.trans hb'
  exact ge_eq_ok_iff.mpr ⟨z, x, hc, ha, decide_eq_true (hle.trans (of_decide_eq_true hyz))⟩

/-- What compares with the greater bound compares with the smaller one. -/
theorem AtMost.exists_ge (h : AtMost a b) {answer : Bool} (hge : c.ge b = .ok answer) :
    ∃ answer', c.ge a = .ok answer' ∧ (answer = true → answer' = true) := by
  obtain ⟨z, _, hc, _, _⟩ := ge_eq_ok_iff.mp hge
  have hplaces := h
  obtain ⟨x, _, ha, _, _⟩ := hplaces
  refine ⟨decide (x ≤ z), ge_eq_ok_iff.mpr ⟨z, x, hc, ha, rfl⟩, fun htrue => ?_⟩
  obtain ⟨z', x', hc', ha', hle⟩ := ge_eq_ok_iff.mp (h.ge (htrue ▸ hge))
  cases hc.symm.trans hc'
  cases ha.symm.trans ha'
  exact hle

theorem AtMost.gt (h : AtMost a b) (hgt : c.gt b = .ok true) : c.gt a = .ok true := by
  obtain ⟨x, y, ha, hb, hle⟩ := h
  obtain ⟨z, y', hc, hb', hyz⟩ := gt_eq_ok_iff.mp hgt
  cases hb.symm.trans hb'
  exact gt_eq_ok_iff.mpr ⟨z, x, hc, ha, decide_eq_true (hle.trans_lt (of_decide_eq_true hyz))⟩

theorem AtMost.le (h : AtMost a b) (hle : c.le a = .ok true) : c.le b = .ok true := by
  obtain ⟨x, y, ha, hb, hxy⟩ := h
  obtain ⟨z, x', hc, ha', hzx⟩ := le_eq_ok_iff.mp hle
  cases ha.symm.trans ha'
  exact le_eq_ok_iff.mpr ⟨z, y, hc, hb, decide_eq_true ((of_decide_eq_true hzx).trans hxy)⟩

theorem AtMost.lt (h : AtMost a b) (hlt : c.lt a = .ok true) : c.lt b = .ok true := by
  obtain ⟨x, y, ha, hb, hxy⟩ := h
  obtain ⟨z, x', hc, ha', hzx⟩ := lt_eq_ok_iff.mp hlt
  cases ha.symm.trans ha'
  exact lt_eq_ok_iff.mpr ⟨z, y, hc, hb, decide_eq_true ((of_decide_eq_true hzx).trans_le hxy)⟩

/-- What is not below the greater bound is not below the smaller one. -/
theorem AtMost.not_lt (h : AtMost a b) (hlt : c.lt b = .ok false) : c.lt a = .ok false := by
  obtain ⟨x, y, ha, hb, hxy⟩ := h
  obtain ⟨z, y', hc, hb', hzy⟩ := lt_eq_ok_iff.mp hlt
  cases hb.symm.trans hb'
  refine lt_eq_ok_iff.mpr ⟨z, x, hc, ha, decide_eq_false fun hzx => ?_⟩
  exact of_decide_eq_false hzy (hzx.trans_le hxy)

theorem AtMost.not_gt (h : AtMost a b) (hgt : c.gt a = .ok false) : c.gt b = .ok false := by
  obtain ⟨x, y, ha, hb, hxy⟩ := h
  obtain ⟨z, x', hc, ha', hxz⟩ := gt_eq_ok_iff.mp hgt
  cases ha.symm.trans ha'
  refine gt_eq_ok_iff.mpr ⟨z, y, hc, hb, decide_eq_false fun hyz => ?_⟩
  exact of_decide_eq_false hxz (hxy.trans_lt hyz)

end Decimal
end QuantPlatform
