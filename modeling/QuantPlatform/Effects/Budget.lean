import Mathlib.Algebra.GroupWithZero.Nat
import QuantPlatform.Effects.Twin

namespace Effects
namespace Program

variable {σ ε α β : Type}

/-- Started anywhere, `c` raises the cost by `k` at most, whether it returns or raises. -/
def Spends (cost : σ → Nat) (k : Nat) (c : Program σ ε α) : Prop :=
  ∀ s, cost (c s).2 ≤ cost s + k

variable {cost : σ → Nat} {k k' : Nat}

theorem spends_of_triple {c : Program σ ε α}
    (h : ∀ n, Triple (fun s => cost s ≤ n) c (fun _ s => cost s ≤ n + k)
      fun _ s => cost s ≤ n + k) : Spends cost k c :=
  fun s => (h (cost s)).holds_after (le_refl (cost s))

theorem Spends.triple {c : Program σ ε α} (h : Spends cost k c) (n : Nat) :
    Triple (fun s => cost s ≤ n) c (fun _ s => cost s ≤ n + k) fun _ s => cost s ≤ n + k := by
  intro s hs
  have hspent : cost (c s).2 ≤ n + k := (h s).trans (Nat.add_le_add_right hs k)
  constructor
  · intro a s' hrun
    rw [hrun] at hspent
    exact hspent
  · intro e s' hrun
    rw [hrun] at hspent
    exact hspent

theorem Spends.mono {c : Program σ ε α} (h : Spends cost k c) (hle : k ≤ k') :
    Spends cost k' c :=
  fun s => (h s).trans (Nat.add_le_add_left hle (cost s))

theorem spends_inspect (f : σ → Except ε α) : Spends cost 0 (inspect f) :=
  fun s => le_refl (cost s)

theorem spends_lift (x : Except ε α) : Spends cost 0 (lift x : Program σ ε α) :=
  spends_inspect fun _ => x

theorem spends_pure (a : α) : Spends cost 0 (pure a : Program σ ε α) :=
  spends_lift (.ok a)

theorem spends_raise (e : ε) : Spends cost 0 (raise e : Program σ ε α) :=
  spends_lift (.error e)

theorem spends_read (f : σ → α) : Spends cost 0 (read f : Program σ ε α) :=
  spends_inspect fun s => .ok (f s)

theorem spends_modify {f : σ → σ} (h : ∀ s, cost (f s) ≤ cost s) :
    Spends cost 0 (modify f : Program σ ε Unit) :=
  h

theorem Spends.bind {c : Program σ ε α} {f : α → Program σ ε β} (h : Spends cost k c)
    (hnext : ∀ a, Spends cost k' (f a)) : Spends cost (k + k') (c >>= f) := by
  intro s
  have hfirst := h s
  cases hrun : c s with
  | mk result s' =>
    rw [hrun] at hfirst
    cases result with
    | ok a =>
      rw [bind_of_ok hrun, ← Nat.add_assoc]
      exact (hnext a s').trans (Nat.add_le_add_right hfirst k')
    | error e =>
      rw [bind_of_error hrun, ← Nat.add_assoc]
      exact Nat.le_add_right_of_le hfirst

/-- What follows a program spends nothing. -/
theorem Spends.andThen {c : Program σ ε α} {f : α → Program σ ε β} (h : Spends cost k c)
    (hnext : ∀ a, Spends cost 0 (f a)) : Spends cost k (c >>= f) :=
  h.bind hnext

/-- What precedes a program spends nothing. -/
theorem Spends.after {c : Program σ ε α} {f : α → Program σ ε β} (h : Spends cost 0 c)
    (hnext : ∀ a, Spends cost k (f a)) : Spends cost k (c >>= f) :=
  (h.bind hnext).mono (Nat.zero_add k).le

theorem spends_ite {p : Prop} [Decidable p] {c d : Program σ ε α}
    (hc : p → Spends cost k c) (hd : ¬ p → Spends cost k d) :
    Spends cost k (if p then c else d) := by
  by_cases hp : p
  · rw [if_pos hp]
    exact hc hp
  · rw [if_neg hp]
    exact hd hp

theorem spends_caught {ε' : Type} {c : Program σ ε α} (h : Spends cost k c) :
    Spends cost k (caught c : Program σ ε' (Except ε α)) :=
  h

/-- Over programs that take turns the budgets add up, however each of them ends. -/
theorem spends_inTurn {c : β → Program σ ε α} {budget : β → Nat} {items : List β}
    (h : ∀ b ∈ items, Spends cost (budget b) (c b)) :
    Spends cost (items.map budget).sum (inTurn (items.map c)) := by
  induction items with
  | nil => exact spends_pure []
  | cons b rest ih =>
    rw [List.map_cons, List.sum_cons]
    refine (spends_caught (h b (List.mem_cons_self ..))).bind fun outcome => ?_
    refine (ih fun b' hb' => h b' (List.mem_cons_of_mem _ hb')).andThen fun outcomes => ?_
    exact spends_pure (outcome :: outcomes)

end Program
end Effects
