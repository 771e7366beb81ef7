/-
How pydantic reads and writes the values inside a model.

A reader takes a value that came from JSON and gives what the field becomes, or nothing
where pydantic raises `ValidationError`.  In its lax mode a number may also come as a
text.  What a writer makes of a value is read back as that value.
-/
import QuantPlatform.Python.Numerals
import QuantPlatform.Python.StrEnum

namespace QuantPlatform
namespace Validation

variable {α : Type}

def dumpOptional (dump : α → PyValue) : Option α → PyValue
  | some a => dump a
  | none => .none

def dumpList (dump : α → PyValue) (items : List α) : PyValue := .list (items.map dump)

def dumpTexts (texts : List String) : PyValue := dumpList .str texts

mutual

/-- A value as `json.loads` returns it. -/
def isJson : PyValue → Bool
  | .decimal _ => false
  | .datetime _ => false
  | .tuple _ => false
  | .list items => isJsonItems items
  | .dict entries => isJsonEntries entries
  | .none => true
  | .bool _ => true
  | .int _ => true
  | .float _ => true
  | .str _ => true

def isJsonItems : List PyValue → Bool
  | [] => true
  | value :: rest => isJson value && isJsonItems rest

def isJsonEntries : List (String × PyValue) → Bool
  | [] => true
  | (_, value) :: rest => isJson value && isJsonEntries rest

end

theorem isJson_dumpOptional {dump : α → PyValue} (h : ∀ a, isJson (dump a) = true)
    (value : Option α) : isJson (dumpOptional dump value) = true := by
  cases value with
  | none => rfl
  | some a => exact h a

theorem isJson_dumpList {dump : α → PyValue} (h : ∀ a, isJson (dump a) = true)
    (items : List α) : isJson (dumpList dump items) = true := by
  show isJsonItems (items.map dump) = true
  induction items with
  | nil => rfl
  | cons item items ih => simp [isJsonItems, h, ih]

theorem isJson_dumpTexts (texts : List String) : isJson (dumpTexts texts) = true :=
  isJson_dumpList (fun _ => rfl) texts

def readText : PyValue → Option String
  | .str s => some s
  | _ => none

def readList (read : PyValue → Option α) : PyValue → Option (List α)
  | .list items => items.mapM read
  | _ => none

def readTexts : PyValue → Option (List String) := readList readText

def readOptional (read : PyValue → Option α) : PyValue → Option (Option α)
  | .none => some none
  | value => (read value).map some

def readMember (α : Type) [StrEnum α] : PyValue → Option α
  | .str text => (StrEnum.lookup α text).toOption
  | _ => none

def readFloat : PyValue → Option PyFloat
  | .float text => PyFloat.ofStr text
  | .int n => some (.ofRat n)
  | .bool b => some (.finite (if b then 1 else 0))
  | .str text => PyFloat.ofStr text
  | _ => none

/-- A required field. -/
def field (entries : List (String × PyValue)) (name : String) (read : PyValue → Option α) :
    Option α :=
  (entries.lookup name).bind read

/-- A field with a default. -/
def fieldOr (default : α) (entries : List (String × PyValue)) (name : String)
    (read : PyValue → Option α) : Option α :=
  match entries.lookup name with
  | some value => read value
  | none => some default

/-- `extra="forbid"`. -/
def onlyKeys (keys : List String) (entries : List (String × PyValue)) : Bool :=
  entries.all fun entry => entry.1 ∈ keys

theorem onlyKeys_of_map_eq {keys : List String} {entries : List (String × PyValue)}
    (h : entries.map Prod.fst = keys) : onlyKeys keys entries = true := by
  subst h
  rw [onlyKeys, List.all_eq_true]
  intro entry hentry
  exact decide_eq_true (List.mem_map_of_mem hentry)

theorem readList_dumpList {dump : α → PyValue} {read : PyValue → Option α} {items : List α}
    (hread : ∀ a ∈ items, read (dump a) = some a) :
    readList read (dumpList dump items) = some items := by
  show (items.map dump).mapM read = some items
  induction items with
  | nil => rfl
  | cons item items ih =>
    rw [List.forall_mem_cons] at hread
    rw [List.map_cons, List.mapM_cons, hread.1, ih hread.2]
    rfl

theorem readTexts_dumpTexts (texts : List String) : readTexts (dumpTexts texts) = some texts :=
  readList_dumpList fun _ _ => rfl

theorem readMember_value [StrEnum α] (a : α) :
    readMember α (.str (StrEnum.value a)) = some a := by
  rw [readMember, StrEnum.lookup_value]
  rfl

theorem readOptional_dumpOptional {dump : α → PyValue} {read : PyValue → Option α}
    {value : Option α} (hread : ∀ a, value = some a → dump a ≠ .none ∧ read (dump a) = some a) :
    readOptional read (dumpOptional dump value) = some value := by
  cases value with
  | none => rfl
  | some a =>
    obtain ⟨hne, hback⟩ := hread a rfl
    show readOptional read (dump a) = some (some a)
    have hmap : readOptional read (dump a) = (read (dump a)).map some := by
      cases hdump : dump a with
      | none => exact absurd hdump hne
      | _ => rfl
    rw [hmap, hback]
    rfl

end Validation
end QuantPlatform
