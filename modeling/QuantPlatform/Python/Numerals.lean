/-
Numbers read from text: `float(s)` and `Decimal(s)`.

Both drop surrounding white space and read a decimal digit of any script as the
digit it stands for.  A `float` allows an underscore between two digits, a
`Decimal` anywhere.  A finite `float` is the rational it represents, read to the
nearest one with ties to even; a text too large for it is read as infinity.
-/
import QuantPlatform.Python.Data
import Mathlib.Algebra.Order.Floor.Semifield
import Mathlib.Data.Int.Log
import Mathlib.Data.Rat.Floor

namespace QuantPlatform

/-- A `float`. -/
inductive PyFloat
  | finite (value : ℚ)
  | infinity (negative : Bool)
  | nan
  deriving DecidableEq, Repr

/-- The nearest integer, half to even. -/
def roundHalfEven (q : ℚ) : Int :=
  let rest := q - q.floor
  if rest < 1 / 2 ∨ (rest = 1 / 2 ∧ q.floor % 2 = 0) then q.floor else q.floor + 1

theorem lt_roundHalfEven_add_one (q : ℚ) : q < roundHalfEven q + 1 := by
  have hfloor : q < q.floor + 1 := Int.lt_floor_add_one q
  unfold roundHalfEven
  dsimp only
  split_ifs with hdown
  · exact hfloor
  · push_cast
    linarith

@[simp] theorem roundHalfEven_intCast (n : Int) : roundHalfEven (n : ℚ) = n := by
  unfold roundHalfEven
  simp

namespace PyFloat

/-- The float as a value; `repr` of a number is a parameter. -/
def toValue (floatRepr : ℚ → String) : PyFloat → PyValue
  | finite value => .float (floatRepr value)
  | infinity negative => .float (if negative then "-inf" else "inf")
  | nan => .float "nan"

/-- The `float` nearest to a rational: 53 bits, exponents down to -1074. -/
def ofRat (q : ℚ) : PyFloat :=
  let exponent := max (Int.log 2 |q| - 52) (-1074)
  let rounded := roundHalfEven (q / 2 ^ exponent) * (2 : ℚ) ^ exponent
  if 2 ^ 1024 ≤ |rounded| then infinity (q < 0) else finite rounded

end PyFloat

/-- The zeros of the decimal digits of each script. -/
def digitZeros : List Nat :=
  [0x30, 0x660, 0x6F0, 0x7C0, 0x966, 0x9E6, 0xA66, 0xAE6, 0xB66, 0xBE6, 0xC66, 0xCE6, 0xD66,
    0xDE6, 0xE50, 0xED0, 0xF20, 0x1040, 0x1090, 0x17E0, 0x1810, 0x1946, 0x19D0, 0x1A80, 0x1A90,
    0x1B50, 0x1BB0, 0x1C40, 0x1C50, 0xA620, 0xA8D0, 0xA900, 0xA9D0, 0xA9F0, 0xAA50, 0xABF0,
    0xFF10, 0x104A0, 0x10D30, 0x11066, 0x110F0, 0x11136, 0x111D0, 0x112F0, 0x11450, 0x114D0,
    0x11650, 0x116C0, 0x11730, 0x118E0, 0x11950, 0x11C50, 0x11D50, 0x11DA0, 0x11F50, 0x16A60,
    0x16AC0, 0x16B50, 0x1D7CE, 0x1D7D8, 0x1D7E2, 0x1D7EC, 0x1D7F6, 0x1E140, 0x1E2F0, 0x1E4D0,
    0x1E950, 0x1FBF0]

/-- The digit a character stands for. -/
def digitValue (c : Char) : Option Nat :=
  (digitZeros.find? fun z => z ≤ c.toNat && c.toNat < z + 10).map fun z =>
    c.toNat - z

/-- `c.isspace()`. -/
def isSpace (c : Char) : Bool :=
  let n := c.toNat
  (9 ≤ n && n ≤ 13) || (28 ≤ n && n ≤ 32) || n == 0x85 || n == 0xA0 || n == 0x1680 ||
    (0x2000 ≤ n && n ≤ 0x200A) || n == 0x2028 || n == 0x2029 || n == 0x202F || n == 0x205F ||
    n == 0x3000

/-- What the number readers see of a text. -/
inductive Glyph
  | digit (value : Nat)
  | char (c : Char)
  deriving DecidableEq, Repr

def glyph (c : Char) : Glyph :=
  match digitValue c with
  | some value => .digit value
  | none => .char c.toLower

/-- The text without surrounding white space. -/
def glyphs (s : String) : List Glyph :=
  (((s.toList.dropWhile isSpace).reverse.dropWhile isSpace).reverse).map glyph

def Glyph.isDigit : Glyph → Bool
  | digit _ => true
  | char _ => false

/-- The glyphs of a word given in lower case. -/
def word (s : String) : List Glyph := s.toList.map Glyph.char

/-- A sign, if there is one, and the rest. -/
def takeSign : List Glyph → Bool × List Glyph
  | .char c :: rest =>
      if c = Char.ofNat 45 then (true, rest)
      else if c = Char.ofNat 43 then (false, rest)
      else (false, .char c :: rest)
  | text => (false, text)

/-- The leading digits and the rest. -/
def takeDigits : List Glyph → List Nat × List Glyph
  | .digit d :: rest => (d :: (takeDigits rest).1, (takeDigits rest).2)
  | text => ([], text)

/-- The number that digits write. -/
def numberOfDigits (digits : List Nat) : Nat :=
  digits.foldl (fun n d => 10 * n + d) 0

/-- The exponent, zero when nothing is left. -/
def readExponent : List Glyph → Option Int
  | [] => some 0
  | .char c :: rest =>
      let (negative, text) := takeSign rest
      match takeDigits text with
      | (digit :: digits, []) =>
          let n : Int := numberOfDigits (digit :: digits)
          if c = Char.ofNat 101 then some (if negative then -n else n) else none
      | _ => none
  | .digit _ :: _ => none

/-- Coefficient, number of its digits and exponent of an unsigned number. -/
def readNumber (text : List Glyph) : Option (Nat × Nat × Int) :=
  let (whole, rest) := takeDigits text
  let (fraction, rest) :=
    match rest with
    | .char c :: tail => if c = Char.ofNat 46 then takeDigits tail else ([], rest)
    | _ => ([], rest)
  if whole = [] ∧ fraction = [] then none
  else
    (readExponent rest).map fun exponent =>
      (numberOfDigits (whole ++ fraction), (whole ++ fraction).length,
        exponent - fraction.length)

/-- Underscores are dropped when each stands between two digits. -/
def dropUnderscores : Bool → List Glyph → Option (List Glyph)
  | _, [] => some []
  | afterDigit, .char c :: rest =>
      if c = Char.ofNat 95 then
        match rest with
        | .digit d :: rest =>
            if afterDigit then (dropUnderscores true rest).map (.digit d :: ·) else none
        | _ => none
      else (dropUnderscores false rest).map (.char c :: ·)
  | _, .digit d :: rest => (dropUnderscores true rest).map (.digit d :: ·)

/-- `float(s)`, or nothing when it raises `ValueError`. -/
def PyFloat.ofStr (s : String) : Option PyFloat := do
  let (negative, text) := takeSign (← dropUnderscores false (glyphs s))
  if text = word "inf" ∨ text = word "infinity" then some (.infinity negative)
  else if text = word "nan" then some .nan
  else
    let (coefficient, _, exponent) ← readNumber text
    let magnitude : ℚ := coefficient * (10 : ℚ) ^ exponent
    some (.ofRat (if negative then -magnitude else magnitude))

example : PyFloat.ofStr " 1_0.25e1\n" = some (.finite (205 / 2)) := by decide +kernel
example : PyFloat.ofStr "-Infinity" = some (.infinity true) := by decide +kernel
example : PyFloat.ofStr "Wed, 21 Oct 2015 07:28:00 GMT" = none := by decide +kernel

/-- `Decimal(s)`, or nothing when it raises `InvalidOperation`: the conversion is
exact, so an exponent out of range is refused. -/
def Decimal.ofStr (s : String) : Option Decimal :=
  let (negative, text) := takeSign ((glyphs s).filter (· ≠ .char (Char.ofNat 95)))
  if text = word "inf" ∨ text = word "infinity" then some (.infinity negative)
  else if word "nan" = text.take 3 ∧ (text.drop 3).all Glyph.isDigit then some .nan
  else if word "snan" = text.take 4 ∧ (text.drop 4).all Glyph.isDigit then some .nan
  else
    match readNumber text with
    | some (coefficient, digits, exponent) =>
        if exponent + digits ≤ 1000000000000000000 ∧ -1999999999999999997 ≤ exponent then
          some (.finite negative coefficient exponent)
        else none
    | none => none

example : Decimal.ofStr "72000.50" = some (.finite false 7200050 (-2)) := by decide
example : Decimal.ofStr "-NaN123" = some .nan := by decide
example : Decimal.ofStr "1,000" = none := by decide

end QuantPlatform
