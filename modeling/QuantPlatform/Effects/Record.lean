/-
Programs with a record of their parts beside the state.

A recorded part notes where it started, what came of it and where it ended.  Nothing
reads the notes, so a program of recorded and unrecorded parts erases to the program
of the parts themselves.
-/
import QuantPlatform.Effects.Program

namespace Effects

namespace Program

variable {σ ε α β τ : Type}

/-- The part leaves a note. -/
def recorded (note : σ → Except ε α → σ → τ) (c : Program σ ε α) :
    Program (σ × List τ) ε α := fun s =>
  ((c s.1).1, (c s.1).2, s.2 ++ [note s.1 (c s.1).1 (c s.1).2])

def unrecorded (c : Program σ ε α) : Program (σ × List τ) ε α := fun s =>
  ((c s.1).1, (c s.1).2, s.2)

/-- Forgetting the notes gives `c` back. -/
def Erases (d : Program (σ × List τ) ε α) (c : Program σ ε α) : Prop :=
  ∀ s notes, (d (s, notes)).1 = (c s).1 ∧ (d (s, notes)).2.1 = (c s).2

theorem erases_recorded (note : σ → Except ε α → σ → τ) (c : Program σ ε α) :
    Erases (recorded note c) c := fun _ _ => ⟨rfl, rfl⟩

theorem erases_unrecorded (c : Program σ ε α) :
    Erases (unrecorded c : Program (σ × List τ) ε α) c := fun _ _ => ⟨rfl, rfl⟩

theorem erases_pure (a : α) :
    Erases (pure a : Program (σ × List τ) ε α) (pure a) := fun _ _ => ⟨rfl, rfl⟩

theorem Erases.bind {d : Program (σ × List τ) ε α} {c : Program σ ε α}
    {g : α → Program (σ × List τ) ε β} {f : α → Program σ ε β} (hd : Erases d c)
    (hg : ∀ a, Erases (g a) (f a)) : Erases (d >>= g) (c >>= f) := by
  intro s notes
  obtain ⟨hresult, hstate⟩ := hd s notes
  cases hc : c s with
  | mk result s' =>
    cases hrun : d (s, notes) with
    | mk result' stop =>
      rw [hc, hrun] at hresult hstate
      obtain rfl : result' = result := hresult
      obtain ⟨s'', notes'⟩ := stop
      obtain rfl : s'' = s' := hstate
      cases result' with
      | ok a =>
        rw [bind_of_ok hc, bind_of_ok hrun]
        exact hg a s'' notes'
      | error e =>
        rw [bind_of_error hc, bind_of_error hrun]
        exact ⟨rfl, rfl⟩

theorem erases_ite {p : Prop} [Decidable p] {d d' : Program (σ × List τ) ε α}
    {c c' : Program σ ε α} (h : Erases d c) (h' : Erases d' c') :
    Erases (if p then d else d') (if p then c else c') := by
  by_cases hp : p
  · rw [if_pos hp, if_pos hp]
    exact h
  · rw [if_neg hp, if_neg hp]
    exact h'

variable {note : σ → Except ε α → σ → τ} {c : Program σ ε α} {s s' : σ} {notes : List τ}

theorem recorded_of_run {result : Except ε α} (h : c s = (result, s')) :
    recorded note c (s, notes) = (result, s', notes ++ [note s result s']) := by
  rw [recorded, h]

theorem unrecorded_of_run {result : Except ε α} (h : c s = (result, s')) :
    (unrecorded c : Program (σ × List τ) ε α) (s, notes) = (result, s', notes) := by
  rw [unrecorded, h]

end Program

end Effects
