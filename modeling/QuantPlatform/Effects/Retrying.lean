import QuantPlatform.Effects.Program
import Mathlib.Order.Nat

namespace Effects
namespace Program

variable {σ ε α ω : Type}

section Loop

variable (send : Program σ ε ω) (verdict : ω → Except ε α) (pause : Nat → Program σ ε Unit)
  (budget : Nat) (afterwards : Program σ ε α)

/-- The attempts still to be made, and what stands after the loop over them. -/
def retrying : List Nat → Program σ ε α
  | [] => afterwards
  | attempt :: rest => do
      let outcome ← send
      match verdict outcome with
      | .ok a => return a
      | .error e =>
          if attempt = budget then raise e
          else do
            pause attempt
            retrying rest

/-- `k` failed attempts, each with the pause after it. -/
inductive Rounds (s : σ) : Nat → σ → Prop
  | start : Rounds s 0 s
  | again {k : Nat} {t heard t' : σ} {outcome : ω} {e : ε} (before : Rounds s k t)
      (hsend : send t = (.ok outcome, heard)) (hverdict : verdict outcome = .error e)
      (hpause : pause k heard = (.ok (), t')) : Rounds s (k + 1) t'

/-- How the attempt after `k` failed ones ends the loop. -/
inductive Ends (k : Nat) (t : σ) : Except ε α → σ → Prop
  | unsent {e : ε} {t' : σ} (hsend : send t = (.error e, t')) : Ends k t (.error e) t'
  | returned {outcome : ω} {heard : σ} {a : α} (hsend : send t = (.ok outcome, heard))
      (hverdict : verdict outcome = .ok a) : Ends k t (.ok a) heard
  | exhausted {outcome : ω} {heard : σ} {e : ε} (hlast : k = budget)
      (hsend : send t = (.ok outcome, heard)) (hverdict : verdict outcome = .error e) :
      Ends k t (.error e) heard
  | interrupted {outcome : ω} {heard t' : σ} {e e' : ε} (hbefore : k < budget)
      (hsend : send t = (.ok outcome, heard)) (hverdict : verdict outcome = .error e)
      (hpause : pause k heard = (.error e', t')) : Ends k t (.error e') t'

end Loop

variable {send : Program σ ε ω} {verdict : ω → Except ε α} {pause : Nat → Program σ ε Unit}
  {budget : Nat} {afterwards : Program σ ε α}

theorem retrying_of_error {attempt : Nat} {rest : List Nat} {t t' : σ} {e : ε}
    (hsend : send t = (.error e, t')) :
    retrying send verdict pause budget afterwards (attempt :: rest) t = (.error e, t') :=
  bind_of_error hsend

theorem retrying_of_ok {attempt : Nat} {rest : List Nat} {t heard : σ} {outcome : ω} {a : α}
    (hsend : send t = (.ok outcome, heard)) (hverdict : verdict outcome = .ok a) :
    retrying send verdict pause budget afterwards (attempt :: rest) t = (.ok a, heard) := by
  rw [retrying, bind_of_ok hsend, hverdict]
  rfl

theorem retrying_of_last {rest : List Nat} {t heard : σ} {outcome : ω} {e : ε}
    (hsend : send t = (.ok outcome, heard)) (hverdict : verdict outcome = .error e) :
    retrying send verdict pause budget afterwards (budget :: rest) t = (.error e, heard) := by
  rw [retrying, bind_of_ok hsend, hverdict]
  exact congrFun (if_pos rfl) heard

theorem retrying_of_ne {attempt : Nat} {rest : List Nat} {t heard : σ} {outcome : ω} {e : ε}
    (hne : attempt ≠ budget) (hsend : send t = (.ok outcome, heard))
    (hverdict : verdict outcome = .error e) :
    retrying send verdict pause budget afterwards (attempt :: rest) t =
      (pause attempt >>= fun _ => retrying send verdict pause budget afterwards rest) heard := by
  rw [retrying, bind_of_ok hsend, hverdict]
  exact congrFun (if_neg hne) heard

/-- An attempt ends the loop, or is a failed round that the attempts left come after. -/
theorem ends_or_again {attempt : Nat} (hle : attempt ≤ budget) (rest : List Nat) (t : σ) :
    Ends send verdict pause budget attempt t
        (retrying send verdict pause budget afterwards (attempt :: rest) t).1
        (retrying send verdict pause budget afterwards (attempt :: rest) t).2 ∨
      ∃ outcome heard e t', attempt < budget ∧ send t = (.ok outcome, heard) ∧
        verdict outcome = .error e ∧ pause attempt heard = (.ok (), t') ∧
        retrying send verdict pause budget afterwards (attempt :: rest) t =
          retrying send verdict pause budget afterwards rest t' := by
  cases hsend : send t with
  | mk result heard =>
    cases result with
    | error e =>
      rw [retrying_of_error hsend]
      exact Or.inl (.unsent hsend)
    | ok outcome =>
      cases hverdict : verdict outcome with
      | ok a =>
        rw [retrying_of_ok hsend hverdict]
        exact Or.inl (.returned hsend hverdict)
      | error e =>
        rcases hle.eq_or_lt with hlast | hbefore
        · subst hlast
          rw [retrying_of_last hsend hverdict]
          exact Or.inl (.exhausted rfl hsend hverdict)
        · rw [retrying_of_ne hbefore.ne hsend hverdict]
          cases hpause : pause attempt heard with
          | mk paused t' =>
            cases paused with
            | error e' =>
              rw [bind_of_error hpause]
              exact Or.inl (.interrupted hbefore hsend hverdict hpause)
            | ok u =>
              rw [bind_of_ok hpause]
              exact Or.inr ⟨outcome, heard, e, t', hbefore, rfl, hverdict, hpause, rfl⟩

/-- With `left` attempts to go after this one. -/
theorem ends_of_rounds {s : σ} (left attempt : Nat) (hlast : attempt + left = budget) {t : σ}
    (h : Rounds send verdict pause s attempt t) :
    ∃ k ≤ budget, ∃ t', Rounds send verdict pause s k t' ∧ Ends send verdict pause budget k t'
      (retrying send verdict pause budget afterwards (List.range' attempt (left + 1)) t).1
      (retrying send verdict pause budget afterwards (List.range' attempt (left + 1)) t).2 := by
  have hle : attempt ≤ budget := by omega
  rw [List.range'_succ]
  induction left generalizing attempt t with
  | zero =>
    rcases ends_or_again hle (List.range' (attempt + 1) 0) t with
      hends | ⟨outcome, heard, e, t', hbefore, _⟩
    · exact ⟨attempt, hle, t, h, hends⟩
    · omega
  | succ left ih =>
    rcases ends_or_again hle (List.range' (attempt + 1) (left + 1)) t with
      hends | ⟨outcome, heard, e, t', hbefore, hsend, hverdict, hpause, hgoes⟩
    · exact ⟨attempt, hle, t, h, hends⟩
    · rw [hgoes, List.range'_succ]
      exact ih (attempt + 1) (by omega) (.again h hsend hverdict hpause) hbefore

/-- Every run of the loop is some failed rounds and an attempt that ends it. -/
theorem retrying_ends (s : σ) :
    ∃ k ≤ budget, ∃ t, Rounds send verdict pause s k t ∧ Ends send verdict pause budget k t
      (retrying send verdict pause budget afterwards (List.range (budget + 1)) s).1
      (retrying send verdict pause budget afterwards (List.range (budget + 1)) s).2 := by
  rw [List.range_eq_range']
  exact ends_of_rounds budget 0 (Nat.zero_add budget) .start

theorem retrying_range'_congr {other : Program σ ε α} (left attempt : Nat)
    (hlast : attempt + left = budget) :
    retrying send verdict pause budget afterwards (List.range' attempt (left + 1)) =
      retrying send verdict pause budget other (List.range' attempt (left + 1)) := by
  induction left generalizing attempt with
  | zero =>
    rw [Nat.add_zero] at hlast
    rw [List.range'_succ]
    unfold retrying
    rw [hlast]
    simp only [if_true]
  | succ left ih =>
    rw [List.range'_succ]
    unfold retrying
    rw [ih (attempt + 1) (by omega)]

/-- What stands after the loop is never run. -/
theorem retrying_congr (other : Program σ ε α) :
    retrying send verdict pause budget afterwards (List.range (budget + 1)) =
      retrying send verdict pause budget other (List.range (budget + 1)) := by
  rw [List.range_eq_range']
  exact retrying_range'_congr budget 0 (Nat.zero_add budget)

/-- The loop with `left` attempts to go after this one: what holds before an attempt leads,
through the pause that follows a failed one, to what holds before the next. -/
theorem triple_retrying {Q : α → σ → Prop} {E : ε → σ → Prop} {Ready : Nat → σ → Prop}
    (Heard : Nat → ω → σ → Prop)
    (hsend : ∀ attempt ≤ budget, Triple (Ready attempt) send (Heard attempt) E)
    (hreturn : ∀ attempt outcome a, verdict outcome = .ok a → attempt ≤ budget →
      ∀ s, Heard attempt outcome s → Q a s)
    (hraise : ∀ outcome e, verdict outcome = .error e → ∀ s, Heard budget outcome s → E e s)
    (hagain : ∀ outcome e attempt, verdict outcome = .error e → attempt < budget →
      Triple (Heard attempt outcome) (pause attempt) (fun _ => Ready (attempt + 1)) E)
    (left attempt : Nat) (hlast : attempt + left = budget) :
    Triple (Ready attempt)
      (retrying send verdict pause budget afterwards (List.range' attempt (left + 1))) Q E := by
  induction left generalizing attempt with
  | zero =>
    rw [Nat.add_zero] at hlast
    refine triple_bind (Heard attempt) (hsend attempt hlast.le) fun outcome => ?_
    cases hverdict : verdict outcome with
    | ok a => exact triple_pure (hreturn attempt outcome a hverdict hlast.le)
    | error e =>
      refine triple_ite (fun _ => triple_raise ?_) fun hne => absurd hlast hne
      rw [hlast]
      exact hraise outcome e hverdict
  | succ left ih =>
    refine triple_bind (Heard attempt) (hsend attempt (by omega)) fun outcome => ?_
    cases hverdict : verdict outcome with
    | ok a => exact triple_pure (hreturn attempt outcome a hverdict (by omega))
    | error e =>
      refine triple_ite (fun hlast' => by omega) fun _ => ?_
      refine triple_bind _ (hagain outcome e attempt hverdict (by omega)) fun _ => ?_
      exact ih (attempt + 1) (by omega)

end Program
end Effects
