/-
Arithmetic on `Decimal` and on `float`.

`Decimal` operations round to the default context: 28 digits, half to even,
exponents from -999999 to 999999, with division by zero, overflow and invalid
operations raised.

Nothing proved about the platform rests on how a `float` rounds, so its
operations are a parameter: whatever they are, the code computes the same thing
from the same bars.
-/
import QuantPlatform.Python.Data

namespace QuantPlatform

namespace Decimal

def precision : Nat := 28

/-- The least and the greatest exponent a result can have, `Etiny` and `Etop`. -/
def etiny : Int := -1000026

def etop : Int := 999972

/-- `n / 10 ^ dropped`, rounded half to even. -/
def roundHalfEven (n dropped : Nat) : Nat :=
  let unit := 10 ^ dropped
  let quotient := n / unit
  let rest := 2 * (n % unit)
  if rest < unit ∨ (rest = unit ∧ quotient % 2 = 0) then quotient else quotient + 1

/-- `_fix`: the number with at most 28 digits, or a zero with its exponent in range. -/
def fix (negative : Bool) (coefficient : Nat) (exponent : Int) : Except Exn Decimal :=
  if coefficient = 0 then
    .ok (finite negative 0 (min (max exponent etiny) 999999))
  else
    let digits : Int := (Nat.toDigits 10 coefficient).length
    let least := digits + exponent - precision
    if etop < least then .error (.other "Overflow")
    else
      let target := max least etiny
      if exponent < target then
        let rounded := roundHalfEven coefficient (target - exponent).toNat
        -- Rounding up may carry into one digit too many.
        if rounded = 10 ^ precision then
          if etop < target + 1 then .error (.other "Overflow")
          else .ok (finite negative (10 ^ (precision - 1)) (target + 1))
        else .ok (finite negative rounded target)
      else .ok (finite negative coefficient exponent)

/-- The coefficient with its sign. -/
def signed (negative : Bool) (coefficient : Nat) : Int :=
  if negative then -(coefficient : Int) else coefficient

def neg : Decimal → Decimal
  | finite negative coefficient exponent => finite (!negative) coefficient exponent
  | infinity negative => infinity (!negative)
  | nan => nan

/-- `a + b`. -/
def add : Decimal → Decimal → Except Exn Decimal
  | nan, _ => .ok nan
  | _, nan => .ok nan
  | infinity s, infinity t => if s = t then .ok (infinity s) else .error .invalidOperation
  | infinity s, finite _ _ _ => .ok (infinity s)
  | finite _ _ _, infinity t => .ok (infinity t)
  | finite s m e, finite t n f =>
      let exponent := min e f
      let sum := signed s (m * 10 ^ (e - exponent).toNat) + signed t (n * 10 ^ (f - exponent).toNat)
      if sum = 0 then fix (m = 0 ∧ n = 0 ∧ s = true ∧ t = true) 0 exponent
      else fix (sum < 0) sum.natAbs exponent

/-- `a - b`. -/
def sub (a b : Decimal) : Except Exn Decimal := add a (neg b)

/-- `a * b`. -/
def mul : Decimal → Decimal → Except Exn Decimal
  | nan, _ => .ok nan
  | _, nan => .ok nan
  | infinity s, infinity t => .ok (infinity (s != t))
  | infinity s, finite t n _ =>
      if n = 0 then .error .invalidOperation else .ok (infinity (s != t))
  | finite s m _, infinity t =>
      if m = 0 then .error .invalidOperation else .ok (infinity (s != t))
  | finite s m e, finite t n f => fix (s != t) (m * n) (e + f)

/-- `abs(a)`, which rounds. -/
def abs : Decimal → Except Exn Decimal
  | finite _ coefficient exponent => fix false coefficient exponent
  | infinity _ => .ok (infinity false)
  | nan => .ok nan

/-- Trailing zeros of an exact quotient are dropped while its exponent is below
the one the operands suggest. -/
def stripZeros : Nat → Nat → Int → Nat × Int
  | 0, coefficient, exponent => (coefficient, exponent)
  | steps + 1, coefficient, exponent =>
      if coefficient % 10 = 0 then stripZeros steps (coefficient / 10) (exponent + 1)
      else (coefficient, exponent)

/-- `a / b`. -/
def div : Decimal → Decimal → Except Exn Decimal
  | nan, _ => .ok nan
  | _, nan => .ok nan
  | infinity _, infinity _ => .error .invalidOperation
  | infinity s, finite t _ _ => .ok (infinity (s != t))
  | finite s _ _, infinity t => .ok (finite (s != t) 0 etiny)
  | finite s m e, finite t n f =>
      if n = 0 then
        if m = 0 then .error .invalidOperation else .error (.other "DivisionByZero")
      else if m = 0 then fix (s != t) 0 (e - f)
      else
        let shift : Int := (Nat.toDigits 10 n).length - (Nat.toDigits 10 m).length + precision + 1
        let dividend := m * 10 ^ shift.toNat
        let divisor := n * 10 ^ (-shift).toNat
        let quotient := dividend / divisor
        let exponent := e - f - shift
        if dividend % divisor = 0 then
          let (coefficient, exponent) := stripZeros (e - f - exponent).toNat quotient exponent
          fix (s != t) coefficient exponent
        else
          -- A last digit that is neither 0 nor 5 remembers that the quotient was not exact.
          fix (s != t) (if quotient % 5 = 0 then quotient + 1 else quotient) exponent

/-- `(b - a) / a`. -/
def changeFrom (a b : Decimal) : Except Exn Decimal := do
  div (← sub b a) a

theorem changeFrom_nan (a : Decimal) : changeFrom a nan = .ok nan := by
  cases a <;> rfl

/-- `sum(xs, Decimal(0))`. -/
def sum (xs : List Decimal) : Except Exn Decimal := xs.foldlM add (ofInt 0)

example : div (ofInt 1) (ofInt 3) = .ok (finite false 3333333333333333333333333333 (-28)) := by
  decide

end Decimal

/-- The `float` operations the models use. -/
class FloatArithmetic (F : Type) where
  ofInt : Int → F
  /-- `float(d)`. -/
  ofDecimal : Decimal → F
  /-- `Decimal(str(x))`. -/
  toDecimal : F → Decimal
  add : F → F → F
  sub : F → F → F
  mul : F → F → F
  /-- `x / y`, which raises for a zero divisor. -/
  div : F → F → Except Exn F
  /-- `sum(xs)`. -/
  sum : List F → F
  /-- `statistics.pstdev(xs)`. -/
  pstdev : List F → Except Exn F
  lt : F → F → Bool
  isZero : F → Bool
  /-- `round(x)`, half to even. -/
  round : F → Except Exn Int

/-- Exact arithmetic: on the numbers it can represent a `float` agrees with it
as long as nothing is rounded. -/
instance exactArithmetic : FloatArithmetic ℚ where
  ofInt n := n
  ofDecimal
    | .finite negative coefficient exponent =>
        Decimal.signed negative coefficient * (10 : ℚ) ^ exponent
    | _ => 0
  toDecimal x :=
    match Decimal.div (Decimal.ofInt x.num) (Decimal.ofInt x.den) with
    | .ok d => d
    | .error _ => .nan
  add x y := x + y
  sub x y := x - y
  mul x y := x * y
  div x y := if y = 0 then .error (.other "ZeroDivisionError") else .ok (x / y)
  sum xs := xs.sum
  pstdev xs :=
    if xs.length = 0 then .error (.other "StatisticsError")
    else
      let mean := xs.sum / xs.length
      let variance := (xs.map fun x => (x - mean) * (x - mean)).sum / xs.length
      .ok (mkRat variance.num.toNat.sqrt variance.den.sqrt)
  lt x y := decide (x < y)
  isZero x := decide (x = 0)
  round x :=
    let floor := x.floor
    let rest := x - floor
    .ok (if rest < 1 / 2 ∨ (rest = 1 / 2 ∧ floor % 2 = 0) then floor else floor + 1)

end QuantPlatform
