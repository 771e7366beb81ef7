/-
How far results of `Decimal` arithmetic can lie from zero.

An operation signals overflow when its result has an exponent above the context's.  What a
`NUMERIC` column holds is far from it, and so is what a few operations make of such numbers:
a result is bounded by what the exact result is bounded by, if the bound is itself a number
of at most 28 digits.  Sums of any practical length are covered, since the bound of a sum of
`n` numbers is `n` times theirs.
-/
import QuantPlatform.Python.Arithmetic
import QuantPlatform.Python.Raise
import Mathlib.Algebra.Order.Field.Power
import Mathlib.Data.Nat.Cast.Order.Field
import Mathlib.Tactic.Linarith
import Mathlib.Tactic.Ring

namespace QuantPlatform
namespace Decimal

/-- A finite decimal of an exponent and a magnitude. -/
def Bounded (low : Int) (bound : ℚ) : Decimal → Prop
  | finite _ coefficient exponent => low ≤ exponent ∧ (coefficient : ℚ) * 10 ^ exponent ≤ bound
  | _ => False

/-- Magnitudes bounded by a power of ten. -/
def Within (low high : Int) (d : Decimal) : Prop := Bounded low (10 ^ high) d

theorem Bounded.mono {low low' : Int} {bound bound' : ℚ} {d : Decimal} (h : Bounded low bound d)
    (hlow : low' ≤ low) (hbound : bound ≤ bound') : Bounded low' bound' d := by
  cases d with
  | finite s m e => exact ⟨hlow.trans h.1, h.2.trans hbound⟩
  | infinity s => exact h
  | nan => exact h

theorem Within.mono {low low' high high' : Int} {d : Decimal} (h : Within low high d)
    (hlow : low' ≤ low) (hhigh : high ≤ high') : Within low' high' d :=
  Bounded.mono h hlow (zpow_le_zpow_right₀ (by norm_num) hhigh)

theorem lt_pow_digits (n : Nat) : n < 10 ^ (Nat.toDigits 10 n).length :=
  (Nat.length_toDigits_le_iff (by norm_num) Nat.length_toDigits_pos).mp (Nat.le_refl _)

theorem pow_digits_le {n : Nat} (hn : n ≠ 0) : 10 ^ ((Nat.toDigits 10 n).length - 1) ≤ n := by
  by_contra hlt
  rw [Nat.not_le] at hlt
  have hpos := @Nat.length_toDigits_pos 10 n
  by_cases hone : (Nat.toDigits 10 n).length = 1
  · rw [hone] at hlt
    omega
  · have hle := (Nat.length_toDigits_le_iff (by norm_num) (by omega)).mpr hlt
    omega

theorem zpow_digits_le {n : Nat} (hn : n ≠ 0) (e : Int) :
    (10 : ℚ) ^ ((Nat.toDigits 10 n).length - 1 + e) ≤ n * 10 ^ e := by
  have hpos := @Nat.length_toDigits_pos 10 n
  have hle : ((10 ^ ((Nat.toDigits 10 n).length - 1) : Nat) : ℚ) ≤ n :=
    Nat.cast_le.mpr (pow_digits_le hn)
  rw [zpow_add₀ (by norm_num)]
  refine mul_le_mul_of_nonneg_right ?_ (by positivity)
  have hcast : ((Nat.toDigits 10 n).length - 1 : Int) = ((Nat.toDigits 10 n).length - 1 : Nat) := by
    omega
  rw [hcast, zpow_natCast]
  exact_mod_cast hle

theorem lt_zpow_digits (n : Nat) (e : Int) :
    (n : ℚ) * 10 ^ e < 10 ^ ((Nat.toDigits 10 n).length + e : Int) := by
  have hlt : (n : ℚ) < ((10 ^ (Nat.toDigits 10 n).length : Nat) : ℚ) :=
    Nat.cast_lt.mpr (lt_pow_digits n)
  rw [zpow_add₀ (by norm_num), zpow_natCast]
  refine mul_lt_mul_of_pos_right ?_ (by positivity)
  exact_mod_cast hlt

/-- Rounding never passes a bound of fewer digits. -/
theorem roundHalfEven_le {n dropped bound : Nat} (h : n ≤ bound * 10 ^ dropped) :
    roundHalfEven n dropped ≤ bound := by
  have hunit : 0 < 10 ^ dropped := by positivity
  have hdiv : n / 10 ^ dropped ≤ bound := Nat.div_le_of_le_mul (by rwa [Nat.mul_comm])
  unfold roundHalfEven
  dsimp only
  split_ifs with hdown
  · exact hdiv
  · -- Only an inexact quotient is rounded up, and that of the bound is exact.
    by_contra hlt
    have hquotient : n / 10 ^ dropped = bound := by omega
    have hmod := Nat.div_add_mod n (10 ^ dropped)
    rw [hquotient, Nat.mul_comm] at hmod
    have hzero : n % 10 ^ dropped = 0 := by omega
    rw [hzero] at hdown
    exact hdown (.inl (by omega))

theorem zpow_split {e target : Int} (h : e ≤ target) :
    (10 : ℚ) ^ target = ((10 ^ (target - e).toNat : Nat) : ℚ) * 10 ^ e := by
  rw [Nat.cast_pow, ← zpow_natCast, Int.toNat_of_nonneg (by omega), Nat.cast_ofNat,
    ← zpow_add₀ (by norm_num), Int.sub_add_cancel]

/-- The same with exponents. -/
theorem roundHalfEven_mul_le {m c : Nat} {e target h : Int} (he : e ≤ target) (hle : target ≤ h)
    (hm : (m : ℚ) * 10 ^ e ≤ c * 10 ^ h) :
    (roundHalfEven m (target - e).toNat : ℚ) * 10 ^ target ≤ c * 10 ^ h := by
  have hpos : (0 : ℚ) < 10 ^ e := by positivity
  have hbound : m ≤ c * 10 ^ (h - target).toNat * 10 ^ (target - e).toNat := by
    rw [zpow_split hle, zpow_split he, ← mul_assoc, ← mul_assoc] at hm
    exact_mod_cast le_of_mul_le_mul_right hm hpos
  have hround : ((roundHalfEven m (target - e).toNat : Nat) : ℚ) ≤
      ((c * 10 ^ (h - target).toNat : Nat) : ℚ) := Nat.cast_le.mpr (roundHalfEven_le hbound)
  calc (roundHalfEven m (target - e).toNat : ℚ) * 10 ^ target
      ≤ ((c * 10 ^ (h - target).toNat : Nat) : ℚ) * 10 ^ target :=
        mul_le_mul_of_nonneg_right hround (by positivity)
    _ = c * 10 ^ h := by rw [zpow_split hle, Nat.cast_mul, mul_assoc]

/-- A power of ten below the bound has an exponent below that of the bound's first digit. -/
theorem lt_of_zpow_le {k h : Int} {c : Nat} (hc : c < 10 ^ 28)
    (hle : (10 : ℚ) ^ k ≤ c * 10 ^ h) : k < 28 + h := by
  have hbase : (0 : ℚ) < 10 := by norm_num
  have hcast : (c : ℚ) < 10 ^ (28 : Int) := by exact_mod_cast hc
  refine (zpow_lt_zpow_iff_right₀ (by norm_num : (1 : ℚ) < 10)).mp (hle.trans_lt ?_)
  rw [zpow_add₀ hbase.ne']
  exact mul_lt_mul_of_pos_right hcast (zpow_pos hbase h)

theorem fix_bounded {negative : Bool} {m : Nat} {e low : Int} {c : Nat} {h : Int}
    (hlow : low ≤ e) (hlow' : low ≤ 999999) (hm : (m : ℚ) * 10 ^ e ≤ c * 10 ^ h)
    (hc : c < 10 ^ 28) (hmin : etiny ≤ h) (hmax : h ≤ etop) :
    ∃ d, fix negative m e = .ok d ∧ Bounded low (c * 10 ^ h) d := by
  have hbase : (0 : ℚ) < 10 := by norm_num
  unfold fix
  split_ifs with hzero
  · refine ⟨_, rfl, ?_, ?_⟩
    · rw [etiny]
      omega
    · simp only [Nat.cast_zero, zero_mul]
      positivity
  · dsimp only
    have hdigits : ((Nat.toDigits 10 m).length : Int) + e ≤ 28 + h := by
      have hfirst := lt_of_zpow_le hc ((zpow_digits_le hzero e).trans hm)
      omega
    have hleast : ((Nat.toDigits 10 m).length : Int) + e - (precision : Int) ≤ h := by
      rw [precision]
      omega
    rw [if_neg (by omega)]
    generalize htarget : max (((Nat.toDigits 10 m).length : Int) + e - (precision : Int)) etiny =
      target
    have hle : target ≤ h := by omega
    by_cases hround : e < target
    · rw [if_pos hround]
      have hrounded := roundHalfEven_mul_le hround.le hle hm
      by_cases hcarry : roundHalfEven m (target - e).toNat = 10 ^ precision
      · rw [if_pos hcarry]
        rw [hcarry, Nat.cast_pow, Nat.cast_ofNat, ← zpow_natCast, ← zpow_add₀ hbase.ne'] at hrounded
        -- A carry lies below the bound, so the bound has an exponent above the target.
        have hlt : target < h := by
          have hfirst := lt_of_zpow_le hc hrounded
          rw [precision] at hfirst
          omega
        rw [if_neg (by omega)]
        refine ⟨_, rfl, by omega, ?_⟩
        refine le_trans (le_of_eq ?_) hrounded
        rw [Nat.cast_pow, Nat.cast_ofNat, ← zpow_natCast, ← zpow_add₀ hbase.ne', precision]
        congr 1
        omega
      · rw [if_neg hcarry]
        exact ⟨_, rfl, by omega, hrounded⟩
    · rw [if_neg hround]
      exact ⟨_, rfl, hlow, hm⟩

/-- The least exponents and the bounds that the context takes. -/
structure InContext (low high : Int) : Prop where
  low : low ≤ 999999
  min : etiny ≤ high
  max : high ≤ etop

theorem fix_within {negative : Bool} {m : Nat} {e low high : Int} (hctx : InContext low high)
    (hlow : low ≤ e) (hm : (m : ℚ) * 10 ^ e ≤ 10 ^ high) :
    ∃ d, fix negative m e = .ok d ∧ Within low high d := by
  have hone : ((1 : Nat) : ℚ) * 10 ^ high = 10 ^ high := by rw [Nat.cast_one, one_mul]
  obtain ⟨d, hd, hbounded⟩ := fix_bounded hlow hctx.low (hm.trans_eq hone.symm) (by norm_num)
    hctx.min hctx.max
  rw [hone] at hbounded
  exact ⟨d, hd, hbounded⟩

theorem natAbs_signed (negative : Bool) (n : Nat) : (signed negative n).natAbs = n := by
  cases negative with
  | false => exact Int.natAbs_natCast n
  | true => exact (Int.natAbs_neg _).trans (Int.natAbs_natCast n)

/-- The sum of the magnitudes bounds a sum. -/
theorem add_bounded {a b : Decimal} {low h : Int} {c c' : Nat} (ha : Bounded low (c * 10 ^ h) a)
    (hb : Bounded low (c' * 10 ^ h) b) (hc : c + c' < 10 ^ 28) (hctx : InContext low h) :
    ∃ d, add a b = .ok d ∧ Bounded low ((c + c' : Nat) * 10 ^ h) d := by
  cases a with
  | infinity s => exact ha.elim
  | nan => exact ha.elim
  | finite s m e =>
    cases b with
    | infinity t => exact hb.elim
    | nan => exact hb.elim
    | finite t n f =>
      unfold add
      dsimp only
      have hmin : low ≤ min e f := le_min ha.1 hb.1
      split_ifs with hsum
      · refine fix_bounded hmin hctx.low ?_ hc hctx.min hctx.max
        rw [Nat.cast_zero, zero_mul]
        positivity
      · refine fix_bounded hmin hctx.low ?_ hc hctx.min hctx.max
        have hle := Int.natAbs_add_le (signed s (m * 10 ^ (e - min e f).toNat))
          (signed t (n * 10 ^ (f - min e f).toNat))
        rw [natAbs_signed, natAbs_signed] at hle
        have hcast : (((signed s (m * 10 ^ (e - min e f).toNat) +
            signed t (n * 10 ^ (f - min e f).toNat)).natAbs : Nat) : ℚ) ≤
              ((m * 10 ^ (e - min e f).toNat + n * 10 ^ (f - min e f).toNat : Nat) : ℚ) :=
          Nat.cast_le.mpr hle
        have ha' := ha.2
        have hb' := hb.2
        rw [zpow_split (min_le_left e f), ← mul_assoc] at ha'
        rw [zpow_split (min_le_right e f), ← mul_assoc] at hb'
        refine (mul_le_mul_of_nonneg_right hcast (by positivity)).trans ?_
        push_cast at ha' hb' ⊢
        rw [add_mul, add_mul]
        exact add_le_add ha' hb'

theorem bounded_of_within {low high : Int} {d : Decimal} (h : Within low high d) :
    Bounded low ((1 : Nat) * 10 ^ high) d := by
  rw [Nat.cast_one, one_mul]
  exact h

theorem neg_within {low high : Int} {d : Decimal} (h : Within low high d) :
    Within low high d.neg := by
  cases d with
  | finite s m e => exact h
  | infinity s => exact h
  | nan => exact h

theorem within_of_bounded {low h : Int} {c : Nat} {d : Decimal}
    (hd : Bounded low (c * 10 ^ h) d) {high : Int} (hc : (c : ℚ) * 10 ^ h ≤ 10 ^ high) :
    Within low high d := hd.mono (le_refl low) hc

theorem add_within {a b : Decimal} {low high : Int} (hctx : InContext low high)
    (ha : Within low high a) (hb : Within low high b) :
    ∃ d, add a b = .ok d ∧ Within low (high + 1) d := by
  obtain ⟨d, hd, hbounded⟩ := add_bounded (bounded_of_within ha) (bounded_of_within hb)
    (by norm_num) hctx
  refine ⟨d, hd, within_of_bounded hbounded ?_⟩
  rw [zpow_add_one₀ (by norm_num), mul_comm]
  exact mul_le_mul_of_nonneg_left (by norm_num) (by positivity)

theorem sub_within {a b : Decimal} {low high : Int} (hctx : InContext low high)
    (ha : Within low high a) (hb : Within low high b) :
    ∃ d, sub a b = .ok d ∧ Within low (high + 1) d :=
  add_within hctx ha (neg_within hb)

theorem foldlM_add_bounded {low h : Int} (hctx : InContext low h) {xs : List Decimal}
    (hxs : ∀ x ∈ xs, Within low h x) {acc : Decimal} {c : Nat}
    (hacc : Bounded low (c * 10 ^ h) acc) (hlength : c + xs.length < 10 ^ 28) :
    ∃ d, xs.foldlM add acc = .ok d ∧ Bounded low ((c + xs.length : Nat) * 10 ^ h) d := by
  induction xs generalizing acc c with
  | nil => exact ⟨acc, rfl, hacc⟩
  | cons x rest ih =>
    rw [List.length_cons] at hlength ⊢
    obtain ⟨next, hnext, hbounded⟩ := add_bounded hacc
      (bounded_of_within (hxs x List.mem_cons_self)) (by omega) hctx
    obtain ⟨d, hd, hsum⟩ := ih (fun y hy => hxs y (List.mem_cons_of_mem x hy)) hbounded (by omega)
    rw [Nat.add_assoc, Nat.add_comm 1] at hsum
    refine ⟨d, ?_, hsum⟩
    rw [List.foldlM_cons, hnext]
    exact hd

/-- A sum is bounded by a power of ten that does not depend on how many it sums. -/
theorem sum_within {low h : Int} (hctx : InContext low h) (hlow : low ≤ 0) {xs : List Decimal}
    (hxs : ∀ x ∈ xs, Within low h x) (hlength : xs.length < 10 ^ 28) :
    ∃ d, sum xs = .ok d ∧ Within low (h + 28) d := by
  have hzero : Bounded low ((0 : Nat) * 10 ^ h) (ofInt 0) := ⟨hlow, by simp⟩
  obtain ⟨d, hd, hbounded⟩ := foldlM_add_bounded hctx hxs hzero (by omega)
  refine ⟨d, hd, within_of_bounded hbounded ?_⟩
  rw [zpow_add₀ (by norm_num), mul_comm]
  refine mul_le_mul_of_nonneg_left ?_ (by positivity)
  have hle : 0 + xs.length ≤ 10 ^ 28 := by omega
  exact_mod_cast hle

theorem mul_within {a b : Decimal} {low low' high high' : Int} (ha : Within low high a)
    (hb : Within low' high' b) (hctx : InContext (low + low') (high + high')) :
    ∃ d, mul a b = .ok d ∧ Within (low + low') (high + high') d := by
  cases a with
  | infinity s => exact ha.elim
  | nan => exact ha.elim
  | finite s m e =>
    cases b with
    | infinity t => exact hb.elim
    | nan => exact hb.elim
    | finite t n f =>
      refine fix_within hctx (add_le_add ha.1 hb.1) ?_
      rw [zpow_add₀ (by norm_num), zpow_add₀ (by norm_num), Nat.cast_mul, mul_mul_mul_comm]
      exact mul_le_mul ha.2 hb.2 (by positivity) (by positivity)

theorem abs_within {a : Decimal} {low high : Int} (hctx : InContext low high)
    (ha : Within low high a) : ∃ d, abs a = .ok d ∧ Within low high d := by
  cases a with
  | infinity s => exact ha.elim
  | nan => exact ha.elim
  | finite s m e => exact fix_within hctx ha.1 ha.2

theorem stripZeros_spec (steps coefficient : Nat) (exponent : Int) :
    exponent ≤ (stripZeros steps coefficient exponent).2 ∧
      ((stripZeros steps coefficient exponent).1 : ℚ) *
          10 ^ (stripZeros steps coefficient exponent).2 = coefficient * 10 ^ exponent := by
  induction steps generalizing coefficient exponent with
  | zero => exact ⟨le_refl _, rfl⟩
  | succ steps ih =>
    unfold stripZeros
    split_ifs with hzero
    · obtain ⟨hle, hvalue⟩ := ih (coefficient / 10) (exponent + 1)
      refine ⟨by omega, hvalue.trans ?_⟩
      have hexact : ((coefficient / 10 : Nat) : ℚ) * 10 = coefficient := by
        exact_mod_cast Nat.div_mul_cancel (Nat.dvd_of_mod_eq_zero hzero)
      rw [zpow_add_one₀ (by norm_num), mul_comm (10 ^ exponent), ← mul_assoc, hexact]
    · exact ⟨le_refl _, rfl⟩

theorem zpow_eq_div (s : Int) :
    (10 : ℚ) ^ s = ((10 ^ s.toNat : Nat) : ℚ) / ((10 ^ (-s).toNat : Nat) : ℚ) := by
  push_cast
  rw [← zpow_natCast, ← zpow_natCast, ← zpow_sub₀ (by norm_num)]
  congr 1
  omega

/-- The integer quotient has at most 30 digits. -/
theorem quotient_lt {m n : Nat} (hn : n ≠ 0) :
    let shift : Int := (Nat.toDigits 10 n).length - (Nat.toDigits 10 m).length + precision + 1
    m * 10 ^ shift.toNat / (n * 10 ^ (-shift).toNat) < 10 ^ 30 := by
  intro shift
  have hn' : (0 : ℚ) < n := Nat.cast_pos.mpr (Nat.pos_of_ne_zero hn)
  have hnum : (m : ℚ) * 10 ^ shift < 10 ^ 30 * n := by
    refine (lt_zpow_digits m shift).trans_le ?_
    have hle := zpow_digits_le hn 0
    rw [zpow_zero, mul_one, add_zero] at hle
    refine le_trans (le_of_eq ?_) (mul_le_mul_of_nonneg_left hle (by positivity))
    rw [← zpow_natCast, ← zpow_add₀ (by norm_num)]
    congr 1
    show _ + ((Nat.toDigits 10 n).length - (Nat.toDigits 10 m).length + (28 : Nat) + 1 : Int) = _
    omega
  have hlt : ((m * 10 ^ shift.toNat : Nat) : ℚ) / ((n * 10 ^ (-shift).toNat : Nat) : ℚ) <
      10 ^ 30 := by
    rw [Nat.cast_mul, Nat.cast_mul, mul_div_mul_comm, ← zpow_eq_div, div_mul_eq_mul_div,
      div_lt_iff₀ hn']
    exact hnum
  exact_mod_cast (Nat.cast_div_le (α := ℚ)).trans_lt hlt

theorem div_within {a : Decimal} {t : Bool} {n : Nat} {f low low' high high' : Int}
    (ha : Within low high a) (hb : Within low' high' (finite t n f)) (hn : n ≠ 0)
    (hctx : InContext (low - high' - 29) (high - low' + 1)) :
    ∃ d, div a (finite t n f) = .ok d ∧ Within (low - high' - 29) (high - low' + 1) d := by
  cases a with
  | infinity s => exact ha.elim
  | nan => exact ha.elim
  | finite s m e =>
    have hbase : (1 : ℚ) < 10 := by norm_num
    have hpos := @Nat.length_toDigits_pos 10 n
    have hdivisor : ((Nat.toDigits 10 n).length : Int) - 1 + f ≤ high' :=
      (zpow_le_zpow_iff_right₀ hbase).mp ((zpow_digits_le hn f).trans hb.2)
    have hlow' := hb.1
    have hlow := ha.1
    unfold div
    dsimp only
    rw [if_neg hn]
    by_cases hm : m = 0
    · rw [if_pos hm]
      refine fix_within hctx (by omega) ?_
      rw [Nat.cast_zero, zero_mul]
      positivity
    · rw [if_neg hm]
      have hdividend : ((Nat.toDigits 10 m).length : Int) - 1 + e ≤ high :=
        (zpow_le_zpow_iff_right₀ hbase).mp ((zpow_digits_le hm e).trans ha.2)
      have hpos' := @Nat.length_toDigits_pos 10 m
      have hquotient := @quotient_lt m n hn
      dsimp only at hquotient
      generalize hshift : ((Nat.toDigits 10 n).length - (Nat.toDigits 10 m).length + precision + 1
        : Int) = shift at hquotient ⊢
      rw [precision] at hshift
      -- Thirty digits at the exponent of the quotient stay below the bound.
      have hscale : ∀ q : Nat, q ≤ 10 ^ 30 →
          (q : ℚ) * 10 ^ (e - f - shift) ≤ 10 ^ (high - low' + 1) := by
        intro q hq
        have hcast : (q : ℚ) ≤ 10 ^ (30 : Int) := by exact_mod_cast hq
        refine (mul_le_mul_of_nonneg_right hcast (by positivity)).trans ?_
        rw [← zpow_add₀ (by norm_num)]
        exact zpow_le_zpow_right₀ hbase.le (by omega)
      generalize m * 10 ^ shift.toNat / (n * 10 ^ (-shift).toNat) = quotient at hquotient ⊢
      split_ifs with hexact hsticky
      · have hstrip := stripZeros_spec (e - f - (e - f - shift)).toNat quotient (e - f - shift)
        exact fix_within hctx (by omega) (hstrip.2.trans_le (hscale quotient (by omega)))
      · exact fix_within hctx (by omega) (hscale (quotient + 1) (by omega))
      · exact fix_within hctx (by omega) (hscale quotient (by omega))

def IsFinite : Decimal → Prop
  | finite _ _ _ => True
  | _ => False

theorem Within.isFinite {low high : Int} {d : Decimal} (h : Within low high d) : IsFinite d := by
  cases d with
  | finite s m e => trivial
  | infinity s => exact h
  | nan => exact h

/-- An order comparison signals on a `NaN` and on nothing else. -/
theorem ordered_eq_ok_iff {test : Ordering → Bool} {a b : Decimal} (ha : IsFinite a) :
    (∃ answer, ordered test a b = .ok answer) ↔ b ≠ nan := by
  cases a with
  | infinity s => exact ha.elim
  | nan => exact ha.elim
  | finite s m e =>
    cases b with
    | finite t n f => exact iff_of_true ⟨_, rfl⟩ nofun
    | infinity t => exact iff_of_true ⟨_, rfl⟩ nofun
    | nan => exact iff_of_false nofun (fun h => h rfl)

/-- A bounded decimal that is not equal to zero has a coefficient. -/
theorem exists_finite_of_ne_zero {low high : Int} {a : Decimal} (ha : Within low high a)
    (hne : a.eq (ofInt 0) = false) : ∃ s m e, a = finite s m e ∧ m ≠ 0 := by
  cases a with
  | infinity s => exact ha.elim
  | nan => exact ha.elim
  | finite s m e =>
    refine ⟨s, m, e, rfl, ?_⟩
    rintro rfl
    cases s <;> simp [eq, compare, rank, ofInt] at hne

/-- It returns what is as said, or something on the way was too large. -/
def OrOverflow {α : Type} (p : α → Prop) (result : Except Exn α) : Prop :=
  (∃ a, result = .ok a ∧ p a) ∨ result = .error (.other "Overflow")

section OrOverflow

variable {α β : Type} {p : α → Prop} {q : β → Prop}

theorem OrOverflow.ok {a : α} (ha : p a) : OrOverflow p (.ok a) := .inl ⟨a, rfl, ha⟩

theorem OrOverflow.bind {x : Except Exn α} {f : α → Except Exn β} (hx : OrOverflow p x)
    (hf : ∀ a, p a → OrOverflow q (f a)) : OrOverflow q (x >>= f) := by
  obtain ⟨a, rfl, ha⟩ | rfl := hx
  · exact hf a ha
  · exact .inr rfl

theorem OrOverflow.mapM {f : α → Except Exn β} {xs : List α}
    (hf : ∀ x ∈ xs, OrOverflow q (f x)) :
    OrOverflow (fun ys => ys.length = xs.length ∧ ∀ y ∈ ys, q y) (xs.mapM f) := by
  induction xs with
  | nil => exact .ok ⟨rfl, fun y hy => absurd hy List.not_mem_nil⟩
  | cons x xs ih =>
    obtain ⟨hx, hrest⟩ := List.forall_mem_cons.mp hf
    rw [List.mapM_cons]
    refine hx.bind fun y hy => (ih hrest).bind fun ys hys => .ok ⟨?_, ?_⟩
    · rw [List.length_cons, List.length_cons, hys.1]
    · exact List.forall_mem_cons.mpr ⟨hy, hys.2⟩

end OrOverflow

abbrev FiniteOrOverflow (result : Except Exn Decimal) : Prop := OrOverflow IsFinite result

theorem fix_finiteOrOverflow (negative : Bool) (coefficient : Nat) (exponent : Int) :
    FiniteOrOverflow (fix negative coefficient exponent) := by
  unfold fix
  dsimp only
  split_ifs
  · exact .inl ⟨_, rfl, trivial⟩
  · exact .inr rfl
  · exact .inr rfl
  · exact .inl ⟨_, rfl, trivial⟩
  · exact .inl ⟨_, rfl, trivial⟩
  · exact .inl ⟨_, rfl, trivial⟩

variable {a b : Decimal}

theorem add_finiteOrOverflow (ha : IsFinite a) (hb : IsFinite b) : FiniteOrOverflow (add a b) := by
  cases a with
  | infinity s => exact ha.elim
  | nan => exact ha.elim
  | finite s m e =>
    cases b with
    | infinity t => exact hb.elim
    | nan => exact hb.elim
    | finite t n f =>
      simp only [add]
      split_ifs
      · exact fix_finiteOrOverflow ..
      · exact fix_finiteOrOverflow ..

theorem sub_finiteOrOverflow (ha : IsFinite a) (hb : IsFinite b) : FiniteOrOverflow (sub a b) := by
  refine add_finiteOrOverflow ha ?_
  cases b with
  | finite t n f => trivial
  | infinity t => exact hb
  | nan => exact hb

theorem mul_finiteOrOverflow (ha : IsFinite a) (hb : IsFinite b) : FiniteOrOverflow (mul a b) := by
  cases a with
  | infinity s => exact ha.elim
  | nan => exact ha.elim
  | finite s m e =>
    cases b with
    | infinity t => exact hb.elim
    | nan => exact hb.elim
    | finite t n f => exact fix_finiteOrOverflow ..

theorem abs_finiteOrOverflow (ha : IsFinite a) : FiniteOrOverflow (abs a) := by
  cases a with
  | infinity s => exact ha.elim
  | nan => exact ha.elim
  | finite s m e => exact fix_finiteOrOverflow ..

theorem div_finiteOrOverflow (ha : IsFinite a) (hb : IsFinite b)
    (hne : b.eq (ofInt 0) = false) : FiniteOrOverflow (div a b) := by
  cases a with
  | infinity s => exact ha.elim
  | nan => exact ha.elim
  | finite s m e =>
    cases b with
    | infinity t => exact hb.elim
    | nan => exact hb.elim
    | finite t n f =>
      have hn : n ≠ 0 := by
        rintro rfl
        cases t <;> simp [eq, compare, rank, ofInt] at hne
      simp only [div, if_neg hn]
      split_ifs
      · exact fix_finiteOrOverflow ..
      · exact fix_finiteOrOverflow ..
      · exact fix_finiteOrOverflow ..
      · exact fix_finiteOrOverflow ..

theorem ordered_orOverflow {test : Ordering → Bool} (ha : IsFinite a) (hb : b ≠ nan) :
    OrOverflow (fun _ => True) (ordered test a b) :=
  ((ordered_eq_ok_iff ha).mpr hb).elim fun _ hanswer => .inl ⟨_, hanswer, trivial⟩

theorem sum_finiteOrOverflow {xs : List Decimal} (hxs : ∀ x ∈ xs, IsFinite x) :
    FiniteOrOverflow (sum xs) := by
  have hrun : ∀ total, IsFinite total → FiniteOrOverflow (xs.foldlM add total) := by
    induction xs with
    | nil => exact fun total htotal => .ok htotal
    | cons x xs ih =>
      intro total htotal
      obtain ⟨hx, hrest⟩ := List.forall_mem_cons.mp hxs
      rw [List.foldlM_cons]
      exact (add_finiteOrOverflow htotal hx).bind (ih hrest)
  exact hrun (ofInt 0) trivial

end Decimal
end QuantPlatform
