/-
Two programs side by side.

A program on one kind of state and a program on another are twins under a relation when,
started in related states, they return or raise the same and stop in related states.  There
is one rule for each way to build a program, so two programs of one shape are compared line
by line.
-/
import QuantPlatform.Effects.Retrying

namespace Effects
namespace Program

variable {σ τ ε α β ω : Type}

/-- The programs do the same as far as `R` can tell. -/
def Twin (R : σ → τ → Prop) (c : Program σ ε α) (d : Program τ ε α) : Prop :=
  ∀ s t, R s t → (c s).1 = (d t).1 ∧ R (c s).2 (d t).2

variable {R : σ → τ → Prop}

theorem twin_lift (x : Except ε α) : Twin R (lift x) (lift x) :=
  fun _ _ h => ⟨rfl, h⟩

theorem twin_pure (a : α) : Twin R (pure a : Program σ ε α) (pure a) :=
  twin_lift (.ok a)

theorem twin_raise (e : ε) : Twin R (raise e : Program σ ε α) (raise e) :=
  twin_lift (.error e)

theorem twin_read {f : σ → α} {g : τ → α} (h : ∀ s t, R s t → f s = g t) :
    Twin R (read f : Program σ ε α) (read g) :=
  fun s t hR => ⟨congrArg Except.ok (h s t hR), hR⟩

theorem twin_modify {f : σ → σ} {g : τ → τ} (h : ∀ s t, R s t → R (f s) (g t)) :
    Twin R (modify f : Program σ ε Unit) (modify g) :=
  fun s t hR => ⟨rfl, h s t hR⟩

theorem twin_bind {c : Program σ ε α} {d : Program τ ε α} {f : α → Program σ ε β}
    {g : α → Program τ ε β} (h : Twin R c d) (hnext : ∀ a, Twin R (f a) (g a)) :
    Twin R (c >>= f) (d >>= g) := by
  intro s t hR
  obtain ⟨hresult, hstate⟩ := h s t hR
  cases hc : c s with
  | mk result s' =>
    cases hd : d t with
    | mk result' t' =>
      rw [hc, hd] at hresult hstate
      cases hresult
      cases result with
      | ok a =>
        rw [bind_of_ok hc, bind_of_ok hd]
        exact hnext a s' t' hstate
      | error e =>
        rw [bind_of_error hc, bind_of_error hd]
        exact ⟨rfl, hstate⟩

theorem twin_ite {p : Prop} [Decidable p] {c c' : Program σ ε α} {d d' : Program τ ε α}
    (h : p → Twin R c d) (h' : ¬ p → Twin R c' d') :
    Twin R (if p then c else c') (if p then d else d') := by
  by_cases hp : p
  · rw [if_pos hp, if_pos hp]
    exact h hp
  · rw [if_neg hp, if_neg hp]
    exact h' hp

theorem twin_caught {ε' : Type} {c : Program σ ε α} {d : Program τ ε α} (h : Twin R c d) :
    Twin R (caught c : Program σ ε' (Except ε α)) (caught d) := by
  intro s t hR
  exact ⟨congrArg Except.ok (h s t hR).1, (h s t hR).2⟩

/-- Loops that judge alike, with attempts and pauses that are twins. -/
theorem twin_retrying {send : Program σ ε ω} {send' : Program τ ε ω}
    {verdict : ω → Except ε α} {pause : Nat → Program σ ε Unit} {pause' : Nat → Program τ ε Unit}
    {budget : Nat} {afterwards : Program σ ε α} {afterwards' : Program τ ε α}
    (hsend : Twin R send send') (hpause : ∀ attempt, Twin R (pause attempt) (pause' attempt))
    (hafter : Twin R afterwards afterwards') (left : List Nat) :
    Twin R (retrying send verdict pause budget afterwards left)
      (retrying send' verdict pause' budget afterwards' left) := by
  induction left with
  | nil => exact hafter
  | cons attempt rest ih =>
    refine twin_bind hsend fun outcome => ?_
    cases verdict outcome with
    | ok a => exact twin_pure a
    | error e =>
      exact twin_ite (fun _ => twin_raise e) fun _ => twin_bind (hpause attempt) fun _ => ih

/-- The programs one after the other, whether they return or raise, and what each did. -/
def inTurn : List (Program σ ε α) → Program σ ε (List (Except ε α))
  | [] => pure []
  | c :: rest => do
      let outcome ← caught c
      let outcomes ← inTurn rest
      return outcome :: outcomes

theorem twin_inTurn {c : β → Program σ ε α} {d : β → Program τ ε α} {items : List β}
    (h : ∀ b ∈ items, Twin R (c b) (d b)) :
    Twin R (inTurn (items.map c)) (inTurn (items.map d)) := by
  induction items with
  | nil => exact twin_pure []
  | cons b rest ih =>
    refine twin_bind (twin_caught (h b (List.mem_cons_self ..))) fun outcome => ?_
    refine twin_bind (ih fun b' hb' => h b' (List.mem_cons_of_mem _ hb')) fun outcomes => ?_
    exact twin_pure (outcome :: outcomes)

end Program
end Effects
