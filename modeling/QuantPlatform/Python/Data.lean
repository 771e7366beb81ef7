/-
The values and exceptions of the host language that the platform's code handles.

Instants are timezone-aware datetimes, counted in microseconds from the epoch:
the resolution of `datetime` and of PostgreSQL's `TIMESTAMPTZ` alike.  Two aware
datetimes compare as instants whatever zone they are written in, so an instant
is an integer.

`Decimal` keeps sign, coefficient and exponent, because its text depends on all
three while its order depends on the number alone.
-/
import Mathlib.Algebra.Order.Field.Rat

namespace QuantPlatform

/-- A timezone-aware datetime, in microseconds from the epoch. -/
abbrev Instant := Int

/-- The exceptions the modelled code raises or lets through. -/
inductive Exn
  | typeError
  | valueError
  | overflowError
  | invalidOperation
  | integrityError
  | cardinalityViolation
  | other (name : String)
  deriving DecidableEq, Repr

namespace Instant

def microsecondsPerDay : Int := 86400000000

/-- `datetime.min` and `datetime.max` in UTC. -/
def datetimeMin : Instant := -62135596800000000

def datetimeMax : Instant := 253402300799999999

/-- `t - timedelta(days=n)`: `timedelta` bounds the number of days, and the
subtraction bounds the year. -/
def minusDays (t : Instant) (n : Int) : Except Exn Instant :=
  if 999999999 < n.natAbs then .error .overflowError
  else
    let shifted := t - n * microsecondsPerDay
    if shifted < datetimeMin ∨ datetimeMax < shifted then .error .overflowError else .ok shifted

/-- `t + timedelta(days=n)`, bounded as `t - timedelta(days=-n)` is. -/
def plusDays (t : Instant) (n : Int) : Except Exn Instant := minusDays t (-n)

/-- Year, month and day of a day counted from the epoch, by eras of 400 years. -/
def civil (days : Int) : Int × Int × Int :=
  let shifted := days + 719468
  let era := shifted / 146097
  let dayOfEra := shifted % 146097
  let yearOfEra := (dayOfEra - dayOfEra / 1460 + dayOfEra / 36524 - dayOfEra / 146096) / 365
  let dayOfYear := dayOfEra - (365 * yearOfEra + yearOfEra / 4 - yearOfEra / 100)
  let marchMonth := (5 * dayOfYear + 2) / 153
  let day := dayOfYear - (153 * marchMonth + 2) / 5 + 1
  let month := if marchMonth < 10 then marchMonth + 3 else marchMonth - 9
  let year := yearOfEra + era * 400 + if month ≤ 2 then 1 else 0
  (year, month, day)

/-- `t.isoformat()` of an instant given in UTC. -/
def isoformat (t : Instant) : String :=
  let days := t / microsecondsPerDay
  let ofDay := t % microsecondsPerDay
  let padded := fun (width : Nat) (n : Int) =>
    let digits := toString n
    String.ofList (List.replicate (width - digits.length) (Char.ofNat 48)) ++ digits
  let (year, month, day) := civil days
  let seconds := ofDay / 1000000
  let micros := ofDay % 1000000
  padded 4 year ++ "-" ++ padded 2 month ++ "-" ++ padded 2 day ++ "T" ++
    padded 2 (seconds / 3600) ++ ":" ++ padded 2 (seconds / 60 % 60) ++ ":" ++
    padded 2 (seconds % 60) ++
    (if micros = 0 then "" else "." ++ padded 6 micros) ++ "+00:00"

example : isoformat 1709210096000001 = "2024-02-29T12:34:56.000001+00:00" := by decide

end Instant

inductive Decimal
  | finite (negative : Bool) (coefficient : Nat) (exponent : Int)
  | infinity (negative : Bool)
  | nan
  deriving DecidableEq, Repr

namespace Decimal

instance : Inhabited Decimal := ⟨finite false 0 0⟩

/-- `Decimal(n)` for an integer. -/
def ofInt (n : Int) : Decimal := finite (n < 0) n.natAbs 0

/-- Where a decimal that is not `NaN` lies: below, among or above the finite ones. -/
def rank : Decimal → Option (Int × ℚ)
  | finite negative coefficient exponent =>
      let magnitude : ℚ := coefficient * (10 : ℚ) ^ exponent
      some (0, if negative then -magnitude else magnitude)
  | infinity negative => some (if negative then -1 else 1, 0)
  | nan => none

def compare (a b : Decimal) : Option Ordering :=
  match a.rank, b.rank with
  | some (i, x), some (j, y) =>
      some (if i < j ∨ (i = j ∧ x < y) then .lt else if i = j ∧ x = y then .eq else .gt)
  | _, _ => none

/-- The four order comparisons signal on `NaN`. -/
def ordered (test : Ordering → Bool) (a b : Decimal) : Except Exn Bool :=
  match a.compare b with
  | some o => .ok (test o)
  | none => .error .invalidOperation

def gt (a b : Decimal) : Except Exn Bool := ordered (· == .gt) a b
def ge (a b : Decimal) : Except Exn Bool := ordered (· != .lt) a b
def lt (a b : Decimal) : Except Exn Bool := ordered (· == .lt) a b
def le (a b : Decimal) : Except Exn Bool := ordered (· != .gt) a b

/-- `a == b`, which a `NaN` answers with `False` and never signals. -/
def eq (a b : Decimal) : Bool := a.compare b == some .eq

/-- `str(d)`. -/
def str : Decimal → String
  | nan => "NaN"
  | infinity negative => if negative then "-Infinity" else "Infinity"
  | finite negative coefficient exponent =>
      let digits := toString coefficient
      let sign := if negative then "-" else ""
      let leftDigits := exponent + digits.length
      let point := if exponent ≤ 0 ∧ -6 < leftDigits then leftDigits else 1
      let zeros := fun n : Int => String.ofList (List.replicate n.toNat (Char.ofNat 48))
      let mantissa :=
        if point ≤ 0 then "0." ++ zeros (-point) ++ digits
        else if (digits.length : Int) ≤ point then digits ++ zeros (point - digits.length)
        else String.ofList (digits.toList.take point.toNat) ++ "."
          ++ String.ofList (digits.toList.drop point.toNat)
      let power :=
        if leftDigits = point then ""
        else "E" ++ (if leftDigits < point then "-" else "+") ++
          toString (leftDigits - point).natAbs
      sign ++ mantissa ++ power

example : (finite false 123450 (-3)).str = "123.450" := by decide
example : (finite true 15 8).str = "-1.5E+9" := by decide

end Decimal

/-- A value of unknown type: what a JSON column holds, and what a scanner stage
records as observed or as threshold.  A `float` is kept by its text. -/
inductive PyValue
  | none
  | bool (b : Bool)
  | int (n : Int)
  | float (repr : String)
  | decimal (d : Decimal)
  | datetime (t : Instant)
  | str (s : String)
  | list (items : List PyValue)
  | tuple (items : List PyValue)
  | dict (entries : List (String × PyValue))
  deriving Repr

/-- `repr(s)` of a string.  A character above ASCII is taken as printable. -/
def reprStr (s : String) : String :=
  let apostrophe := Char.ofNat 39
  let doubleQuote := Char.ofNat 34
  let backslash := Char.ofNat 92
  let quote :=
    if apostrophe ∈ s.toList ∧ doubleQuote ∉ s.toList then doubleQuote else apostrophe
  let hex := fun n : Nat => (Nat.toDigits 16 n)
  let escape := fun c : Char =>
    if c = quote ∨ c = backslash then [backslash, c]
    else if c = Char.ofNat 10 then [backslash, Char.ofNat 110]
    else if c = Char.ofNat 13 then [backslash, Char.ofNat 114]
    else if c = Char.ofNat 9 then [backslash, Char.ofNat 116]
    else if c.toNat < 16 then [backslash, Char.ofNat 120, Char.ofNat 48] ++ hex c.toNat
    else if c.toNat < 32 ∨ c.toNat = 127 then [backslash, Char.ofNat 120] ++ hex c.toNat
    else [c]
  String.ofList ([quote] ++ s.toList.flatMap escape ++ [quote])

end QuantPlatform
