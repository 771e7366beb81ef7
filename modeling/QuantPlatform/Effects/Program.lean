/-
Programs that change a state and may raise, and their triples.

A program that raises leaves the state as it was at that moment.  A triple says
where a program started in `P` can end: in `Q` of what it returned, or in `E` of
what it raised.  There is one rule for each way to build a program, so the proof
of a triple follows the program line by line.
-/
import Mathlib.Logic.Basic
import Mathlib.Logic.Relation

namespace Effects

/-- A program on states `σ` that returns an `α` or raises an `ε`. -/
def Program (σ ε α : Type) : Type := σ → Except ε α × σ

namespace Program

variable {σ ε α β : Type}

def bind (c : Program σ ε α) (f : α → Program σ ε β) : Program σ ε β := fun s =>
  match c s with
  | (.ok a, s') => f a s'
  | (.error e, s') => (.error e, s')

instance : Monad (Program σ ε) where
  pure a := fun s => (.ok a, s)
  bind := bind

/-- A part of the state. -/
def read (f : σ → α) : Program σ ε α := fun s => (.ok (f s), s)

def modify (f : σ → σ) : Program σ ε Unit := fun s => (.ok (), f s)

/-- What a computation that only reads the state returns or raises. -/
def inspect (f : σ → Except ε α) : Program σ ε α := fun s => (f s, s)

/-- What a computation without state returns or raises. -/
def lift (x : Except ε α) : Program σ ε α := fun s => (x, s)

def raise (e : ε) : Program σ ε α := lift (.error e)

/-- `try` around a program whose exception, if any, is kept. -/
def caught {ε' : Type} (c : Program σ ε α) : Program σ ε' (Except ε α) := fun s =>
  (.ok (c s).1, (c s).2)

theorem bind_apply (c : Program σ ε α) (f : α → Program σ ε β) (s : σ) :
    (c >>= f) s = match c s with
      | (.ok a, s') => f a s'
      | (.error e, s') => (.error e, s') := rfl

theorem bind_of_ok {c : Program σ ε α} {f : α → Program σ ε β} {s s' : σ} {a : α}
    (h : c s = (.ok a, s')) : (c >>= f) s = f a s' := by
  rw [bind_apply, h]

theorem bind_of_error {c : Program σ ε α} {f : α → Program σ ε β} {s s' : σ} {e : ε}
    (h : c s = (.error e, s')) : (c >>= f) s = (.error e, s') := by
  rw [bind_apply, h]

theorem bind_read (f : σ → α) (g : α → Program σ ε β) (s : σ) :
    (read f >>= g) s = g (f s) s := rfl

theorem bind_modify (f : σ → σ) (g : Unit → Program σ ε β) (s : σ) :
    (modify f >>= g) s = g () (f s) := rfl

theorem bind_lift_pure {γ : Type} (c : Program σ ε α) (f : α → Except ε β) (g : β → γ) :
    ((c >>= fun a => lift (f a)) >>= fun b => pure (g b)) =
      (c >>= fun a => lift ((f a).map g)) := by
  funext s
  cases hrun : c s with
  | mk result s' =>
    cases result with
    | error e => rw [bind_of_error (bind_of_error hrun), bind_of_error hrun]
    | ok a =>
      rw [bind_of_ok hrun]
      show _ = ((f a).map g, s')
      cases hresult : f a with
      | error e =>
        have hfirst : (c >>= fun a => lift (f a)) s = (.error e, s') := by
          rw [bind_of_ok hrun, lift, hresult]
        rw [bind_of_error hfirst]
        rfl
      | ok b =>
        have hfirst : (c >>= fun a => lift (f a)) s = (.ok b, s') := by
          rw [bind_of_ok hrun, lift, hresult]
        rw [bind_of_ok hfirst]
        rfl

/-! ## Triples -/

/-- Started where `P` holds, `c` ends where `Q` holds of the value it returned or
`E` of the exception it raised. -/
def Triple (P : σ → Prop) (c : Program σ ε α) (Q : α → σ → Prop) (E : ε → σ → Prop) : Prop :=
  ∀ s, P s → (∀ a s', c s = (.ok a, s') → Q a s') ∧ ∀ e s', c s = (.error e, s') → E e s'

variable {P : σ → Prop} {Q : α → σ → Prop} {R : β → σ → Prop} {E : ε → σ → Prop}

theorem triple_pure {a : α} (h : ∀ s, P s → Q a s) :
    Triple P (pure a : Program σ ε α) Q E := by
  intro s hs
  constructor
  · intro b s' hb
    obtain ⟨ha, rfl⟩ := Prod.mk.inj hb
    cases ha
    exact h s hs
  · intro e s' he
    cases (Prod.mk.inj he).1

/-- Sequencing, by what holds in between. -/
theorem triple_bind {c : Program σ ε α} {f : α → Program σ ε β} (Q : α → σ → Prop)
    (hc : Triple P c Q E) (hf : ∀ a, Triple (Q a) (f a) R E) : Triple P (c >>= f) R E := by
  intro s hs
  obtain ⟨hok, herror⟩ := hc s hs
  cases hrun : c s with
  | mk result s' =>
    cases result with
    | ok a =>
      rw [bind_of_ok hrun]
      exact hf a s' (hok a s' hrun)
    | error e =>
      rw [bind_of_error hrun]
      constructor
      · intro b s'' hb
        cases (Prod.mk.inj hb).1
      · intro e' s'' he
        obtain ⟨he, rfl⟩ := Prod.mk.inj he
        cases he
        exact herror e s' hrun

theorem triple_lift {x : Except ε α} (hok : ∀ a, x = .ok a → ∀ s, P s → Q a s)
    (herror : ∀ e, x = .error e → ∀ s, P s → E e s) :
    Triple P (lift x : Program σ ε α) Q E := by
  intro s hs
  constructor
  · intro a s' h
    obtain ⟨ha, rfl⟩ := Prod.mk.inj h
    exact hok a ha s hs
  · intro e s' h
    obtain ⟨he, rfl⟩ := Prod.mk.inj h
    exact herror e he s hs

theorem triple_raise {e : ε} (h : ∀ s, P s → E e s) :
    Triple P (raise e : Program σ ε α) Q E := by
  refine triple_lift ?_ ?_
  · intro a ha
    cases ha
  · intro e' he
    cases he
    exact h

theorem triple_read {f : σ → α} (h : ∀ s, P s → Q (f s) s) :
    Triple P (read f : Program σ ε α) Q E := by
  intro s hs
  constructor
  · intro a s' ha
    obtain ⟨ha, rfl⟩ := Prod.mk.inj ha
    cases ha
    exact h s hs
  · intro e s' he
    cases (Prod.mk.inj he).1

theorem triple_modify {f : σ → σ} {Q : Unit → σ → Prop} (h : ∀ s, P s → Q () (f s)) :
    Triple P (modify f : Program σ ε Unit) Q E := by
  intro s hs
  constructor
  · intro a s' ha
    obtain ⟨_, rfl⟩ := Prod.mk.inj ha
    exact h s hs
  · intro e s' he
    cases (Prod.mk.inj he).1

theorem triple_caught {ε' : Type} {c : Program σ ε α} {Q : σ → Prop} {E' : ε' → σ → Prop}
    (hc : Triple P c (fun _ => Q) fun _ => Q) :
    Triple P (caught c : Program σ ε' (Except ε α)) (fun _ => Q) E' := by
  intro s hs
  constructor
  · intro a s' ha
    obtain ⟨_, rfl⟩ := Prod.mk.inj ha
    cases hrun : c s with
    | mk result s' =>
      cases result with
      | ok a => exact (hc s hs).1 a s' hrun
      | error e => exact (hc s hs).2 e s' hrun
  · intro e s' he
    cases (Prod.mk.inj he).1

theorem triple_trivial {c : Program σ ε α} :
    Triple P c (fun _ _ => True) fun _ _ => True :=
  fun _ _ => ⟨fun _ _ _ => trivial, fun _ _ _ => trivial⟩

theorem Triple.conseq {P' : σ → Prop} {Q' : α → σ → Prop} {E' : ε → σ → Prop}
    {c : Program σ ε α} (h : Triple P c Q E) (hpre : ∀ s, P' s → P s)
    (hpost : ∀ a s, Q a s → Q' a s) (hraise : ∀ e s, E e s → E' e s) : Triple P' c Q' E' := by
  intro s hs
  obtain ⟨hok, herror⟩ := h s (hpre s hs)
  exact ⟨fun a s' h => hpost a s' (hok a s' h), fun e s' h => hraise e s' (herror e s' h)⟩

theorem Triple.and {P' : σ → Prop} {Q' : α → σ → Prop} {E' : ε → σ → Prop}
    {c : Program σ ε α} (h : Triple P c Q E) (h' : Triple P' c Q' E') :
    Triple (fun s => P s ∧ P' s) c (fun a s => Q a s ∧ Q' a s) fun e s => E e s ∧ E' e s :=
  fun s hs => ⟨fun a s' hrun => ⟨(h s hs.1).1 a s' hrun, (h' s hs.2).1 a s' hrun⟩,
    fun e s' hrun => ⟨(h s hs.1).2 e s' hrun, (h' s hs.2).2 e s' hrun⟩⟩

/-- A precondition that holds of no state but by a fact about the program's arguments. -/
theorem triple_of_pure {p : Prop} {c : Program σ ε α} (h : p → Triple P c Q E) :
    Triple (fun s => p ∧ P s) c Q E :=
  fun s hs => h hs.1 s hs.2

theorem triple_ite {p : Prop} [Decidable p] {c d : Program σ ε α}
    (hc : p → Triple P c Q E) (hd : ¬ p → Triple P d Q E) :
    Triple P (if p then c else d) Q E := by
  by_cases hp : p
  · rw [if_pos hp]
    exact hc hp
  · rw [if_neg hp]
    exact hd hp

theorem Triple.ok {c : Program σ ε α} (h : Triple P c Q E) {s s' : σ} {a : α} (hs : P s)
    (hrun : c s = (.ok a, s')) : Q a s' := (h s hs).1 a s' hrun

theorem Triple.error {c : Program σ ε α} (h : Triple P c Q E) {s s' : σ} {e : ε} (hs : P s)
    (hrun : c s = (.error e, s')) : E e s' := (h s hs).2 e s' hrun

/-- What holds whether `c` returns or raises holds where it stops. -/
theorem Triple.holds_after {I J : σ → Prop} {c : Program σ ε α}
    (h : Triple I c (fun _ => J) fun _ => J) {s : σ} (hs : I s) : J (c s).2 := by
  cases hrun : c s with
  | mk result s' =>
    cases result with
    | ok a => exact h.ok hs hrun
    | error e => exact h.error hs hrun

/-- The states that a caller can bring about with programs of a kind, one after
the other, whether they return or raise. -/
def Reaches (calls : Set (Program σ ε α)) : σ → σ → Prop :=
  Relation.ReflTransGen fun s s' => ∃ c ∈ calls, s' = (c s).2

theorem Reaches.invariant {calls : Set (Program σ ε α)} {I : σ → Prop}
    (h : ∀ c ∈ calls, Triple I c (fun _ => I) fun _ => I) {s s' : σ} (hs : I s)
    (hrun : Reaches calls s s') : I s' := by
  induction hrun with
  | refl => exact hs
  | tail _ hstep ih =>
    obtain ⟨c, hc, rfl⟩ := hstep
    exact (h c hc).holds_after ih

end Program

end Effects
