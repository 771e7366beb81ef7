import QuantPlatform.Python.Data
import Mathlib.Data.List.Nodup

namespace QuantPlatform

class StrEnum (α : Type) where
  members : List α
  value : α → String
  complete : ∀ a, a ∈ members
  distinct : (members.map value).Nodup

namespace StrEnum

variable {α : Type} [StrEnum α]

/-- `Enum(text)`. -/
def lookup (α : Type) [StrEnum α] (text : String) : Except Exn α :=
  match members.find? fun a : α => value a = text with
  | some a => .ok a
  | none => .error .valueError

theorem value_injective {a b : α} (h : value a = value b) : a = b :=
  List.inj_on_of_nodup_map distinct (complete a) (complete b) h

@[simp]
theorem lookup_value (a : α) : lookup α (value a) = .ok a := by
  unfold lookup
  cases h : members.find? fun b : α => value b = value a with
  | some b =>
    have hb : value b = value a := by simpa using List.find?_some h
    rw [value_injective hb]
  | none =>
    have hnone := List.find?_eq_none.mp h a (complete a)
    simp at hnone

end StrEnum

end QuantPlatform
