/-
What the columns of a table take.

The driver refuses a text with a NUL.  A text longer than its column is refused unless
what is too much are spaces, which are cut off.  A naive datetime is read in the time
zone of the session.

A JSON column takes what `json.dumps` writes, if it is JSON: the dump of a float that is
no number is not, and a NUL in a string is refused.  What is stored is what was dumped,
with a list for each tuple.
-/
import QuantPlatform.Core.Exceptions
import QuantPlatform.Python.Datetime
import QuantPlatform.Python.Validation

namespace QuantPlatform
namespace Db

open QuantPlatform.Core Validation

def hasNul (text : String) : Bool := text.toList.contains (Char.ofNat 0)

def dataError (text : String) : Raised := { cls := .other (.other "DataError"), text }

def textColumn (text : String) : Except Raised String :=
  if hasNul text then
    .error (dataError "PostgreSQL text fields cannot contain NUL (0x00) bytes")
  else .ok text

/-- `VARCHAR(limit)`. -/
def varchar (limit : Nat) (text : String) : Except Raised String := do
  let text ← textColumn text
  if text.length ≤ limit then return text
  else if (text.toList.drop limit).all (· == ' ') then
    return String.ofList (text.toList.take limit)
  else throw (dataError ("value too long for type character varying(" ++ toString limit ++ ")"))

theorem varchar_of_fits {limit : Nat} {text : String} (hnul : hasNul text = false)
    (hfits : text.length ≤ limit) : varchar limit text = .ok text := by
  rw [varchar, textColumn, hnul]
  simp only [Bool.false_eq_true, if_false]
  exact if_pos hfits

/-- `TIMESTAMPTZ`. -/
def timestamptz (sessionOffset : Int → Int) (written : WrittenDatetime) : Instant :=
  written.wallTime - written.utcoffset.getD (sessionOffset written.wallTime)

theorem hasNul_eq_false_iff {text : String} :
    hasNul text = false ↔ ∀ c ∈ text.toList, c ≠ Char.ofNat 0 := by
  rw [hasNul, ← Bool.not_eq_true, List.contains_iff_mem]
  constructor
  · rintro h c hc rfl
    exact h hc
  · exact fun h hc => h _ hc rfl

@[simp] theorem hasNul_append (a b : String) : hasNul (a ++ b) = (hasNul a || hasNul b) := by
  simp [hasNul, String.toList_append]

theorem hasNul_natToString (n : Nat) : hasNul (toString n) = false := by
  rw [hasNul_eq_false_iff]
  rintro c hc rfl
  rw [Nat.toString_eq_repr, Nat.toList_repr] at hc
  exact absurd (Nat.isDigit_of_mem_toDigits (by decide) (by decide) hc) (by decide)

theorem hasNul_intToString (n : Int) : hasNul (toString n) = false := by
  cases n with
  | ofNat n => exact hasNul_natToString n
  | negSucc n =>
    show hasNul ("-" ++ toString (n + 1)) = false
    rw [hasNul_append, hasNul_natToString]
    rfl

theorem hasNul_zeros (n : Nat) :
    hasNul (String.ofList (List.replicate n (Char.ofNat 48))) = false := by
  rw [hasNul_eq_false_iff, String.toList_ofList]
  rintro c hc rfl
  exact absurd (List.mem_replicate.mp hc).2 (by decide)

theorem hasNul_isoformat (t : Instant) : hasNul t.isoformat = false := by
  have hmarks : hasNul "" = false ∧ hasNul "-" = false ∧ hasNul "T" = false ∧
      hasNul ":" = false ∧ hasNul "." = false ∧ hasNul "+00:00" = false := by decide
  delta Instant.isoformat
  simp only [hasNul_append, apply_ite hasNul, hasNul_intToString, hasNul_zeros, hmarks,
    Bool.or_self, ite_self]

theorem hasNul_str (d : Decimal) : hasNul d.str = false := by
  cases d with
  | nan => decide
  | infinity negative => cases negative <;> decide
  | finite negative coefficient exponent =>
    have hmarks : hasNul "" = false ∧ hasNul "-" = false ∧ hasNul "0." = false ∧
        hasNul "." = false ∧ hasNul "E" = false ∧ hasNul "+" = false := by decide
    have hpart : ∀ part : List Char, (∀ c ∈ part, c ∈ (toString coefficient).toList) →
        hasNul (String.ofList part) = false := by
      intro part hpart
      rw [hasNul_eq_false_iff, String.toList_ofList]
      exact fun c hc => hasNul_eq_false_iff.mp (hasNul_natToString coefficient) c (hpart c hc)
    simp only [Decimal.str, hasNul_append, apply_ite hasNul, hasNul_natToString, hasNul_zeros,
      hmarks, hpart _ fun c => List.mem_of_mem_take, hpart _ fun c => List.mem_of_mem_drop,
      Bool.or_self, ite_self]

mutual

/-- `json.dumps` knows how to write the value. -/
def serializable : PyValue → Bool
  | .decimal _ => false
  | .datetime _ => false
  | .list items => serializableItems items
  | .tuple items => serializableItems items
  | .dict entries => serializableEntries entries
  | .none => true
  | .bool _ => true
  | .int _ => true
  | .float _ => true
  | .str _ => true

def serializableItems : List PyValue → Bool
  | [] => true
  | value :: rest => serializable value && serializableItems rest

def serializableEntries : List (String × PyValue) → Bool
  | [] => true
  | (_, value) :: rest => serializable value && serializableEntries rest

end

mutual

/-- JSONB takes what is written of the value. -/
def jsonbAccepts : PyValue → Bool
  | .float repr => repr ∉ ["nan", "inf", "-inf"]
  | .str s => ! hasNul s
  | .list items => jsonbAcceptsItems items
  | .tuple items => jsonbAcceptsItems items
  | .dict entries => jsonbAcceptsEntries entries
  | .none => true
  | .bool _ => true
  | .int _ => true
  | .decimal _ => true
  | .datetime _ => true

def jsonbAcceptsItems : List PyValue → Bool
  | [] => true
  | value :: rest => jsonbAccepts value && jsonbAcceptsItems rest

def jsonbAcceptsEntries : List (String × PyValue) → Bool
  | [] => true
  | (name, value) :: rest => ! hasNul name && jsonbAccepts value && jsonbAcceptsEntries rest

end

theorem jsonbAccepts_dumpList_iff {α : Type} {dump : α → PyValue} {items : List α} :
    jsonbAccepts (dumpList dump items) = true ↔
      ∀ item ∈ items, jsonbAccepts (dump item) = true := by
  change jsonbAcceptsItems (items.map dump) = true ↔ _
  induction items with
  | nil => exact iff_of_true rfl nofun
  | cons first rest ih =>
    rw [List.map_cons, jsonbAcceptsItems, Bool.and_eq_true, ih, List.forall_mem_cons]

mutual

/-- What is read from the column after the value was written. -/
def jsonDecoded : PyValue → PyValue
  | .list items => .list (jsonDecodedItems items)
  | .tuple items => .list (jsonDecodedItems items)
  | .dict entries => .dict (jsonDecodedEntries entries)
  | .none => .none
  | .bool b => .bool b
  | .int n => .int n
  | .float repr => .float repr
  | .decimal d => .decimal d
  | .datetime t => .datetime t
  | .str s => .str s

def jsonDecodedItems : List PyValue → List PyValue
  | [] => []
  | value :: rest => jsonDecoded value :: jsonDecodedItems rest

def jsonDecodedEntries : List (String × PyValue) → List (String × PyValue)
  | [] => []
  | (name, value) :: rest => (name, jsonDecoded value) :: jsonDecodedEntries rest

end

/-- `JSONB`. -/
def jsonb (value : PyValue) : Except Raised PyValue :=
  if ! serializable value then
    .error { cls := .other .typeError, text := "Object is not JSON serializable" }
  else if ! jsonbAccepts value then .error (dataError "invalid input syntax for type json")
  else .ok (jsonDecoded value)

mutual

theorem serializable_of_isJson : ∀ value : PyValue, isJson value = true →
    serializable value = true
  | .none, _ | .bool _, _ | .int _, _ | .float _, _ | .str _, _ => rfl
  | .list items, h => by
    rw [isJson] at h
    rw [serializable, serializableItems_of_isJson items h]
  | .dict entries, h => by
    rw [isJson] at h
    rw [serializable, serializableEntries_of_isJson entries h]

theorem serializableItems_of_isJson : ∀ items : List PyValue, isJsonItems items = true →
    serializableItems items = true
  | [], _ => rfl
  | value :: rest, h => by
    rw [isJsonItems, Bool.and_eq_true] at h
    rw [serializableItems, serializable_of_isJson value h.1,
      serializableItems_of_isJson rest h.2]
    rfl

theorem serializableEntries_of_isJson : ∀ entries : List (String × PyValue),
    isJsonEntries entries = true → serializableEntries entries = true
  | [], _ => rfl
  | (_, value) :: rest, h => by
    rw [isJsonEntries, Bool.and_eq_true] at h
    rw [serializableEntries, serializable_of_isJson value h.1,
      serializableEntries_of_isJson rest h.2]
    rfl

end

mutual

theorem jsonDecoded_of_isJson : ∀ value : PyValue, isJson value = true →
    jsonDecoded value = value
  | .none, _ | .bool _, _ | .int _, _ | .float _, _ | .str _, _ => rfl
  | .list items, h => by
    rw [isJson] at h
    rw [jsonDecoded, jsonDecodedItems_of_isJson items h]
  | .dict entries, h => by
    rw [isJson] at h
    rw [jsonDecoded, jsonDecodedEntries_of_isJson entries h]

theorem jsonDecodedItems_of_isJson : ∀ items : List PyValue, isJsonItems items = true →
    jsonDecodedItems items = items
  | [], _ => rfl
  | value :: rest, h => by
    rw [isJsonItems, Bool.and_eq_true] at h
    rw [jsonDecodedItems, jsonDecoded_of_isJson value h.1, jsonDecodedItems_of_isJson rest h.2]

theorem jsonDecodedEntries_of_isJson : ∀ entries : List (String × PyValue),
    isJsonEntries entries = true → jsonDecodedEntries entries = entries
  | [], _ => rfl
  | (_, value) :: rest, h => by
    rw [isJsonEntries, Bool.and_eq_true] at h
    rw [jsonDecodedEntries, jsonDecoded_of_isJson value h.1,
      jsonDecodedEntries_of_isJson rest h.2]

end

/-- A JSON value that the column takes is stored as it is. -/
theorem jsonb_of_isJson {value : PyValue} (hjson : isJson value = true)
    (haccepts : jsonbAccepts value = true) : jsonb value = .ok value := by
  rw [jsonb, serializable_of_isJson value hjson, haccepts, jsonDecoded_of_isJson value hjson]
  rfl

end Db
end QuantPlatform
