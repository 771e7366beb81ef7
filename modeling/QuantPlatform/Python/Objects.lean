import QuantPlatform.Python.Json
import QuantPlatform.Python.Numerals
import Mathlib.Data.List.Sort

namespace QuantPlatform
namespace PyValue

/-- `repr` of a datetime in UTC. -/
def reprDatetime (t : Instant) : String :=
  let (year, month, day) := Instant.civil (t / Instant.microsecondsPerDay)
  let ofDay := t % Instant.microsecondsPerDay
  let seconds := ofDay / 1000000
  let micros := ofDay % 1000000
  let least := [year, month, day, seconds / 3600, seconds / 60 % 60]
  let fields :=
    if micros ≠ 0 then least ++ [seconds % 60, micros]
    else if seconds % 60 ≠ 0 then least ++ [seconds % 60] else least
  "datetime.datetime(" ++ ", ".intercalate (fields.map toString) ++
    ", tzinfo=datetime.timezone.utc)"

mutual

/-- `repr(value)`. -/
def repr : PyValue → String
  | .none => "None"
  | .bool b => if b then "True" else "False"
  | .int n => toString n
  | .float text => text
  | .decimal d => "Decimal('" ++ d.str ++ "')"
  | .datetime t => reprDatetime t
  | .str s => reprStr s
  | .list items => "[" ++ ", ".intercalate (reprItems items) ++ "]"
  | .tuple items =>
      "(" ++ ", ".intercalate (reprItems items) ++ (if items.length = 1 then ",)" else ")")
  | .dict entries => "\x7b" ++ ", ".intercalate (reprEntries entries) ++ "\x7d"

def reprItems : List PyValue → List String
  | [] => []
  | value :: rest => repr value :: reprItems rest

def reprEntries : List (String × PyValue) → List String
  | [] => []
  | (name, value) :: rest => (reprStr name ++ ": " ++ repr value) :: reprEntries rest

end

/-- `str(value)`. -/
def text : PyValue → String
  | .str s => s
  | .decimal d => d.str
  | .datetime t => Json.datetimeText t
  | value => repr value

/-- Where a number lies, as `Decimal.rank` has it. -/
def rank : PyValue → Option (Int × ℚ)
  | .bool b => some (0, if b then 1 else 0)
  | .int n => some (0, n)
  | .decimal d => d.rank
  | .float text =>
      match PyFloat.ofStr text with
      | some (.finite value) => some (0, value)
      | some (.infinity negative) => some (if negative then -1 else 1, 0)
      | _ => Option.none
  | _ => Option.none

/-- `bool(value)`. -/
def isTruthy : PyValue → Bool
  | .none => false
  | .str s => s != ""
  | .list items => !items.isEmpty
  | .tuple items => !items.isEmpty
  | .dict entries => !entries.isEmpty
  | .datetime _ => true
  | number => number.rank != some (0, 0)

mutual

/-- `a == b`, of values that have a hash. -/
def same : PyValue → PyValue → Bool
  | .none, .none => true
  | .str s, .str t => s == t
  | .datetime s, .datetime t => s == t
  | .tuple items, .tuple others => sameItems items others
  | a, b =>
      match a.rank, b.rank with
      | some x, some y => x == y
      | _, _ => false

def sameItems : List PyValue → List PyValue → Bool
  | [], [] => true
  | value :: rest, other :: others => same value other && sameItems rest others
  | _, _ => false

end

mutual

/-- The value has a hash. -/
def isHashable : PyValue → Bool
  | .list _ => false
  | .dict _ => false
  | .tuple items => allHashable items
  | _ => true

def allHashable : List PyValue → Bool
  | [] => true
  | value :: rest => isHashable value && allHashable rest

end

end PyValue

/-- A `frozenset`, in an order of iteration. -/
structure FrozenSet where
  items : List PyValue
  hashable : ∀ value ∈ items, value.isHashable = true

namespace FrozenSet

/-- `value in values`, which hashes the value first, also of an empty set. -/
def contains (values : FrozenSet) (value : PyValue) : Except Exn Bool :=
  if value.isHashable then .ok (values.items.any value.same) else .error .typeError

/-- `sorted(values, key=str)`. -/
def sortedByStr (values : FrozenSet) : List PyValue :=
  values.items.insertionSort fun a b => a.text ≤ b.text

theorem contains_eq_ok_iff (values : FrozenSet) (value : PyValue) :
    (∃ answer, values.contains value = .ok answer) ↔ value.isHashable = true := by
  unfold contains
  cases value.isHashable with
  | false => exact iff_of_false nofun nofun
  | true => exact iff_of_true ⟨_, rfl⟩ rfl

end FrozenSet

end QuantPlatform
