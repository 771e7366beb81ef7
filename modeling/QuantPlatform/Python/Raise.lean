import Mathlib.Data.List.Forall2

namespace Raise

variable {ε α β : Type}

theorem ok_bind (a : α) (f : α → Except ε β) : (.ok a : Except ε α) >>= f = f a := rfl

theorem bind_eq_ok_iff {x : Except ε α} {f : α → Except ε β} {b : β} :
    x >>= f = .ok b ↔ ∃ a, x = .ok a ∧ f a = .ok b := by
  cases x with
  | error e =>
    show Except.error e = Except.ok b ↔ _
    simp
  | ok a =>
    show f a = Except.ok b ↔ _
    simp

theorem exists_bind_eq_ok_iff {x : Except ε α} {f : α → Except ε β} :
    (∃ b, x >>= f = .ok b) ↔ ∃ a, x = .ok a ∧ ∃ b, f a = .ok b := by
  cases x with
  | error e => exact iff_of_false nofun nofun
  | ok a =>
    show (∃ b, f a = .ok b) ↔ _
    simp

/-- What is computed from a result returns when the result does. -/
theorem exists_bind_pure_iff {x : Except ε α} {f : α → β} :
    (∃ b, (x >>= fun a => pure (f a)) = .ok b) ↔ ∃ a, x = .ok a := by
  cases x with
  | error e => exact iff_of_false nofun nofun
  | ok a => exact iff_of_true ⟨f a, rfl⟩ ⟨a, rfl⟩

theorem mapM_eq_ok_iff {f : α → Except ε β} {xs : List α} {ys : List β} :
    xs.mapM f = .ok ys ↔ List.Forall₂ (fun x y => f x = .ok y) xs ys := by
  induction xs generalizing ys with
  | nil =>
    rw [List.mapM_nil, List.forall₂_nil_left_iff]
    show Except.ok [] = Except.ok ys ↔ _
    rw [Except.ok.injEq]
    exact eq_comm
  | cons x xs ih =>
    rw [List.mapM_cons, bind_eq_ok_iff, List.forall₂_cons_left_iff]
    constructor
    · intro h
      obtain ⟨y, hy, h⟩ := h
      obtain ⟨rest, hrest, h⟩ := bind_eq_ok_iff.mp h
      exact ⟨y, rest, hy, ih.mp hrest, (Except.ok.inj h).symm⟩
    · intro h
      obtain ⟨y, rest, hy, hrest, hys⟩ := h
      subst hys
      exact ⟨y, hy, bind_eq_ok_iff.mpr ⟨rest, ih.mpr hrest, rfl⟩⟩

theorem exists_mapM_eq_ok {f : α → Except ε β} {xs : List α}
    (h : ∀ x ∈ xs, ∃ y, f x = .ok y) : ∃ ys, xs.mapM f = .ok ys := by
  induction xs with
  | nil => exact ⟨[], rfl⟩
  | cons x xs ih =>
    obtain ⟨y, hy⟩ := h x List.mem_cons_self
    obtain ⟨ys, hys⟩ := ih fun x' hx' => h x' (List.mem_cons_of_mem x hx')
    refine ⟨y :: ys, ?_⟩
    rw [mapM_eq_ok_iff] at hys ⊢
    exact List.Forall₂.cons hy hys

/-- When `f` returned on every element, what holds of all results is what `f`
returns on all elements. -/
theorem forall_mem_iff_of_mapM {f : α → Except ε β} {xs : List α} {ys : List β}
    (h : xs.mapM f = .ok ys) (p : β → Prop) :
    (∀ y ∈ ys, p y) ↔ ∀ x ∈ xs, ∃ y, f x = .ok y ∧ p y := by
  have hall := mapM_eq_ok_iff.mp h
  clear h
  induction hall with
  | nil => simp
  | @cons x y xs ys hxy _ ih =>
    rw [List.forall_mem_cons, List.forall_mem_cons]
    simp [hxy, ih]

theorem exists_mapM_eq_ok_iff {f : α → Except ε β} {xs : List α} :
    (∃ ys, xs.mapM f = .ok ys) ↔ ∀ x ∈ xs, ∃ y, f x = .ok y := by
  constructor
  · rintro ⟨ys, hys⟩ x hx
    obtain ⟨y, hy, _⟩ := (forall_mem_iff_of_mapM hys fun _ => True).mp (fun _ _ => trivial) x hx
    exact ⟨y, hy⟩
  · exact exists_mapM_eq_ok

theorem exists_mem_iff_of_mapM {f : α → Except ε β} {xs : List α} {ys : List β}
    (h : xs.mapM f = .ok ys) (p : β → Prop) :
    (∃ y ∈ ys, p y) ↔ ∃ x ∈ xs, ∃ y, f x = .ok y ∧ p y := by
  have hall := mapM_eq_ok_iff.mp h
  clear h
  induction hall with
  | nil => simp
  | @cons x y xs ys hxy _ ih =>
    rw [List.exists_mem_cons_iff, List.exists_mem_cons_iff]
    simp [hxy, ih]

/-- Where `g` returns whenever `f` does, and something related, so do their runs. -/
theorem exists_mapM_of_forall₂ {α' β' : Type} {f : α → Except ε β} {g : α' → Except ε β'}
    {R : β → β' → Prop} {xs : List α} {xs' : List α'}
    (h : List.Forall₂ (fun x x' => ∀ y, f x = .ok y → ∃ y', g x' = .ok y' ∧ R y y') xs xs')
    {ys : List β} (hys : xs.mapM f = .ok ys) :
    ∃ ys', xs'.mapM g = .ok ys' ∧ List.Forall₂ R ys ys' := by
  have hall := mapM_eq_ok_iff.mp hys
  clear hys
  induction h generalizing ys with
  | nil =>
    cases hall
    exact ⟨[], rfl, .nil⟩
  | @cons x x' xs xs' hx _ ih =>
    rw [List.forall₂_cons_left_iff] at hall
    obtain ⟨y, rest, hy, hrest, rfl⟩ := hall
    obtain ⟨y', hy', hrelated⟩ := hx y hy
    obtain ⟨rest', hrest', hall'⟩ := ih hrest
    refine ⟨y' :: rest', ?_, .cons hrelated hall'⟩
    rw [mapM_eq_ok_iff] at hrest' ⊢
    exact .cons hy' hrest'

end Raise
