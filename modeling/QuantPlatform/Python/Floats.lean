/-
Arithmetic on `float`, each result rounded to the nearest.

Beyond the range of a `float` lies infinity, and an operation without a result is NaN, but
neither is near: rounding keeps a number within a bound that is a power of two, so a few
operations on numbers of moderate size stay finite.  The sign of a zero is not kept.
-/
import QuantPlatform.Python.Numerals
import Mathlib.Tactic.Linarith
import Mathlib.Tactic.Positivity

namespace QuantPlatform

theorem roundHalfEven_le {q : ℚ} {n : Int} (h : q ≤ n) : roundHalfEven q ≤ n := by
  have hfloor : (q.floor : ℚ) ≤ q := Int.floor_le q
  have hle : q.floor ≤ n := by exact_mod_cast hfloor.trans h
  unfold roundHalfEven
  dsimp only
  split_ifs with hdown
  · exact hle
  · -- Rounding up needs a rest, so the floor lies below the number.
    rw [not_or] at hdown
    have hlt : (q.floor : ℚ) < n := by linarith [not_lt.mp hdown.1]
    have hlt' : q.floor < n := by exact_mod_cast hlt
    omega

theorem le_roundHalfEven {q : ℚ} {n : Int} (h : (n : ℚ) ≤ q) : n ≤ roundHalfEven q := by
  have hfloor : n ≤ q.floor := Int.le_floor.mpr h
  unfold roundHalfEven
  dsimp only
  split_ifs
  · exact hfloor
  · omega

namespace PyFloat

def ofInt (n : Int) : PyFloat := ofRat n

def neg : PyFloat → PyFloat
  | finite a => finite (-a)
  | infinity s => infinity (!s)
  | nan => nan

def add : PyFloat → PyFloat → PyFloat
  | nan, _ => nan
  | _, nan => nan
  | infinity s, infinity t => if s = t then infinity s else nan
  | infinity s, finite _ => infinity s
  | finite _, infinity t => infinity t
  | finite a, finite b => ofRat (a + b)

def sub (a b : PyFloat) : PyFloat := add a (neg b)

/-- The product with an infinity of a number that is not zero. -/
def scaled (negative : Bool) (a : ℚ) : PyFloat :=
  if a = 0 then nan else infinity (negative != decide (a < 0))

def mul : PyFloat → PyFloat → PyFloat
  | nan, _ => nan
  | _, nan => nan
  | infinity s, infinity t => infinity (s != t)
  | infinity s, finite b => scaled s b
  | finite a, infinity t => scaled t a
  | finite a, finite b => ofRat (a * b)

def abs : PyFloat → PyFloat
  | finite a => finite |a|
  | infinity _ => infinity false
  | nan => nan

/-- The quotient of two counts. -/
def ratio (m n : Nat) : PyFloat := ofRat (m / n)

def le : PyFloat → PyFloat → Bool
  | nan, _ => false
  | _, nan => false
  | infinity s, infinity t => s || !t
  | infinity s, finite _ => s
  | finite _, infinity t => !t
  | finite a, finite b => decide (a ≤ b)

def lt : PyFloat → PyFloat → Bool
  | nan, _ => false
  | _, nan => false
  | infinity s, infinity t => s && !t
  | infinity s, finite _ => s
  | finite _, infinity t => !t
  | finite a, finite b => decide (a < b)

/-- A finite float of a magnitude. -/
def Bounded (bound : ℚ) : PyFloat → Prop
  | finite value => |value| ≤ bound
  | _ => False

/-- Neither an infinity nor NaN. -/
def IsFinite : PyFloat → Prop
  | finite _ => True
  | _ => False

theorem Bounded.isFinite {bound : ℚ} {x : PyFloat} (h : Bounded bound x) : x.IsFinite := by
  cases x with
  | finite value => trivial
  | infinity s => exact h
  | nan => exact h

theorem Bounded.mono {bound bound' : ℚ} {x : PyFloat} (h : Bounded bound x)
    (hle : bound ≤ bound') : Bounded bound' x := by
  cases x with
  | finite value => exact h.trans hle
  | infinity s => exact h
  | nan => exact h

/-- Rounding keeps a number within a power of two. -/
theorem ofRat_bounded {q : ℚ} {k : Nat} (hk : k ≤ 1023) (h : |q| ≤ 2 ^ k) :
    Bounded (2 ^ k) (ofRat q) := by
  have hlog : Int.log 2 |q| ≤ k := by
    by_cases hzero : |q| ≤ 0
    · rw [Int.log_of_right_le_zero 2 hzero]
      omega
    · refine (Int.log_mono_right (not_le.mp hzero) h).trans (le_of_eq ?_)
      exact_mod_cast Int.log_zpow (R := ℚ) one_lt_two (k : Int)
  unfold ofRat
  dsimp only
  generalize hexponent : max (Int.log 2 |q| - 52) (-1074) = exponent
  have hle : exponent ≤ k := by omega
  have hpos : (0 : ℚ) < 2 ^ exponent := zpow_pos (by norm_num) exponent
  have hscale : (2 : ℚ) ^ k = ((2 ^ ((k : Int) - exponent).toNat : Int) : ℚ) * 2 ^ exponent := by
    push_cast
    rw [← zpow_natCast, ← zpow_natCast, Int.toNat_of_nonneg (by omega),
      ← zpow_add₀ (by norm_num), Int.sub_add_cancel]
  have hbounds := abs_le.mp h
  have hrounded : |(roundHalfEven (q / 2 ^ exponent) : ℚ) * 2 ^ exponent| ≤ 2 ^ k := by
    rw [abs_mul, abs_of_pos hpos, hscale]
    refine mul_le_mul_of_nonneg_right ?_ hpos.le
    rw [abs_le]
    constructor
    · have hlow : ((-(2 ^ ((k : Int) - exponent).toNat : Int) : Int) : ℚ) ≤ q / 2 ^ exponent := by
        rw [le_div_iff₀ hpos, Int.cast_neg, neg_mul, ← hscale]
        exact hbounds.1
      exact_mod_cast le_roundHalfEven hlow
    · have hhigh : q / 2 ^ exponent ≤ ((2 ^ ((k : Int) - exponent).toNat : Int) : ℚ) := by
        rw [div_le_iff₀ hpos, ← hscale]
        exact hbounds.2
      exact_mod_cast roundHalfEven_le hhigh
  rw [if_neg]
  · exact hrounded
  · rw [not_le]
    exact hrounded.trans_lt (pow_lt_pow_right₀ (by norm_num) (by omega))

theorem abs_bounded {x : PyFloat} {bound : ℚ} (h : Bounded bound x) : Bounded bound x.abs := by
  cases x with
  | finite value => exact (abs_abs value).trans_le h
  | infinity s => exact h
  | nan => exact h

theorem neg_bounded {x : PyFloat} {bound : ℚ} (h : Bounded bound x) : Bounded bound x.neg := by
  cases x with
  | finite value => exact (abs_neg value).trans_le h
  | infinity s => exact h
  | nan => exact h

theorem add_bounded {x y : PyFloat} {k : Nat} (hx : Bounded (2 ^ k) x) (hy : Bounded (2 ^ k) y)
    (hk : k + 1 ≤ 1023) : Bounded (2 ^ (k + 1)) (add x y) := by
  cases x with
  | infinity s => exact hx.elim
  | nan => exact hx.elim
  | finite a =>
    cases y with
    | infinity t => exact hy.elim
    | nan => exact hy.elim
    | finite b =>
      refine ofRat_bounded hk ((abs_add_le a b).trans ?_)
      rw [pow_succ, mul_two]
      exact add_le_add hx hy

theorem sub_bounded {x y : PyFloat} {k : Nat} (hx : Bounded (2 ^ k) x) (hy : Bounded (2 ^ k) y)
    (hk : k + 1 ≤ 1023) : Bounded (2 ^ (k + 1)) (sub x y) :=
  add_bounded hx (neg_bounded hy) hk

theorem mul_bounded {x y : PyFloat} {j k : Nat} (hx : Bounded (2 ^ j) x) (hy : Bounded (2 ^ k) y)
    (hk : j + k ≤ 1023) : Bounded (2 ^ (j + k)) (mul x y) := by
  cases x with
  | infinity s => exact hx.elim
  | nan => exact hx.elim
  | finite a =>
    cases y with
    | infinity t => exact hy.elim
    | nan => exact hy.elim
    | finite b =>
      refine ofRat_bounded hk ?_
      rw [abs_mul, pow_add]
      exact mul_le_mul hx hy (abs_nonneg b) (by positivity)

/-- A part of a whole is at most one. -/
theorem ratio_bounded {m n : Nat} (h : m ≤ n) : Bounded (2 ^ 0) (ratio m n) := by
  refine ofRat_bounded (by norm_num) ?_
  rw [abs_of_nonneg (by positivity), pow_zero]
  exact div_le_one_of_le₀ (Nat.cast_le.mpr h) (Nat.cast_nonneg n)

/-- A number between two that are bounded is bounded. -/
theorem bounded_of_le {low x high : PyFloat} {bound : ℚ} (hlow : Bounded bound low)
    (hhigh : Bounded bound high) (hle : le low x = true) (hle' : le x high = true) :
    Bounded bound x := by
  cases low with
  | infinity s => exact hlow.elim
  | nan => exact hlow.elim
  | finite a =>
    cases high with
    | infinity s => exact hhigh.elim
    | nan => exact hhigh.elim
    | finite b =>
      cases x with
      | finite value =>
        have ha : a ≤ value := of_decide_eq_true hle
        have hb : value ≤ b := of_decide_eq_true hle'
        exact abs_le.mpr ⟨(abs_le.mp hlow).1.trans ha, hb.trans (abs_le.mp hhigh).2⟩
      | infinity s => cases s <;> simp [le] at hle hle'
      | nan => simp [le] at hle

theorem le_of_lt {x y : PyFloat} (h : lt x y = true) : le x y = true := by
  cases x with
  | finite a =>
    cases y with
    | finite b =>
      have hlt : a < b := of_decide_eq_true h
      exact decide_eq_true hlt.le
    | infinity t => exact h
    | nan => exact h
  | infinity s =>
    cases y with
    | finite b => exact h
    | infinity t =>
      rw [lt, Bool.and_eq_true] at h
      rw [le, h.1]
      rfl
    | nan => exact h
  | nan => exact h

end PyFloat
end QuantPlatform
