import Mathlib.Data.List.Basic

namespace Effects

variable {Event α : Type}

/-- What `f` shows of event `n`. -/
def seen (f : Event → Option α) (log : List Event) (n : Nat) : Option α :=
  log[n]?.bind f

theorem seen_eq_some_iff {f : Event → Option α} {log : List Event} {n : Nat} {a : α} :
    seen f log n = some a ↔ ∃ e, log[n]? = some e ∧ f e = some a := by
  unfold seen
  exact Option.bind_eq_some_iff

theorem lt_length_of_seen {f : Event → Option α} {log : List Event} {n : Nat} {a : α}
    (h : seen f log n = some a) : n < log.length := by
  obtain ⟨e, he, _⟩ := seen_eq_some_iff.mp h
  exact (List.getElem?_eq_some_iff.mp he).1

theorem seen_eq_getElem?_map (f : Event → Option α) (log : List Event) (n : Nat) :
    seen f log n = (log.map f)[n]?.join := by
  unfold seen
  rw [List.getElem?_map]
  cases log[n]? with
  | none => rfl
  | some e => rfl

/-- What a log shows, checked position by position. -/
theorem forall_seen {f : Event → Option α} {log : List Event} {shown : List (Option α)}
    (p : Nat → α → Prop) (h : log.map f = shown)
    (hall : ∀ n < shown.length, ∀ a ∈ shown[n]?.join, p n a) {n : Nat} {a : α}
    (hseen : seen f log n = some a) : p n a := by
  rw [seen_eq_getElem?_map, h] at hseen
  have hlt : n < shown.length := by
    by_contra hge
    rw [List.getElem?_eq_none (Nat.le_of_not_lt hge)] at hseen
    cases hseen
  exact hall n hlt a hseen

@[simp] theorem seen_nil (f : Event → Option α) (n : Nat) : seen f [] n = none := by
  unfold seen
  simp

theorem seen_append_of_lt {f : Event → Option α} {log : List Event} {n : Nat}
    (h : n < log.length) (more : List Event) : seen f (log ++ more) n = seen f log n := by
  unfold seen
  rw [List.getElem?_append_left h]

@[simp] theorem seen_append_length (f : Event → Option α) (log : List Event) (e : Event) :
    seen f (log ++ [e]) log.length = f e := by
  unfold seen
  rw [List.getElem?_append_right (Nat.le_refl _), Nat.sub_self]
  rfl

/-- What an append adds is seen at the end. -/
theorem seen_append_eq_some_iff {f : Event → Option α} {log : List Event} {e : Event} {n : Nat}
    {a : α} :
    seen f (log ++ [e]) n = some a ↔ seen f log n = some a ∨ n = log.length ∧ f e = some a := by
  constructor
  · intro h
    have hlt := lt_length_of_seen h
    rw [List.length_append, List.length_singleton] at hlt
    rcases Nat.lt_succ_iff_lt_or_eq.mp hlt with hold | hnew
    · rw [seen_append_of_lt hold] at h
      exact Or.inl h
    · rw [hnew, seen_append_length] at h
      exact Or.inr ⟨hnew, h⟩
  · intro h
    rcases h with hold | ⟨hnew, hlast⟩
    · rw [seen_append_of_lt (lt_length_of_seen hold)]
      exact hold
    · rw [hnew, seen_append_length]
      exact hlast

end Effects
