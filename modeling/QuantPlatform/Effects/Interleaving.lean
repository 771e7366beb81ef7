import Mathlib.Data.List.Induction
import Mathlib.Logic.Function.Basic

namespace Effects
namespace Interleaving

variable {ι σ φ : Type}

/-- The phases of the processes, and what they share. -/
structure Config (ι σ φ : Type) where
  phase : ι → φ
  shared : σ

variable [DecidableEq ι] (advance : ι → φ → σ → φ × σ)

/-- The turn of a process. -/
def step (c : Config ι σ φ) (i : ι) : Config ι σ φ where
  phase := Function.update c.phase i (advance i (c.phase i) c.shared).1
  shared := (advance i (c.phase i) c.shared).2

def run (c : Config ι σ φ) (schedule : List ι) : Config ι σ φ := schedule.foldl (step advance) c

/-- All turns of a run meet a condition on the configuration before them. -/
def Permitted (P : Config ι σ φ → ι → Prop) (c : Config ι σ φ) (schedule : List ι) : Prop :=
  ∀ before i after, schedule = before ++ i :: after → P (run advance c before) i

variable {advance}

theorem step_phase_self (c : Config ι σ φ) (i : ι) :
    (step advance c i).phase i = (advance i (c.phase i) c.shared).1 := Function.update_self ..

theorem step_phase_of_ne (c : Config ι σ φ) {i j : ι} (h : j ≠ i) :
    (step advance c i).phase j = c.phase j := Function.update_of_ne h ..

theorem run_concat (c : Config ι σ φ) (before : List ι) (i : ι) :
    run advance c (before ++ [i]) = step advance (run advance c before) i := by
  rw [run, List.foldl_append]
  rfl

theorem Permitted.of_append {P : Config ι σ φ → ι → Prop} {c : Config ι σ φ}
    {before after : List ι} (h : Permitted advance P c (before ++ after)) :
    Permitted advance P c before := by
  intro front i rest hbefore
  refine h front i (rest ++ after) ?_
  rw [hbefore, List.append_assoc]
  rfl

theorem permitted_of_take {P : Config ι σ φ → ι → Prop} {c : Config ι σ φ} {schedule : List ι}
    (h : ∀ n i, schedule[n]? = some i → P (run advance c (schedule.take n)) i) :
    Permitted advance P c schedule := by
  intro before i after hschedule
  subst hschedule
  have hturn := h before.length i (by simp)
  rw [List.take_left] at hturn
  exact hturn

/-- An invariant of the permitted steps holds in every state of a permitted run. -/
theorem invariant_run {P : Config ι σ φ → ι → Prop} {I : Config ι σ φ → Prop}
    (hstep : ∀ c i, I c → P c i → I (step advance c i)) {c : Config ι σ φ} (hc : I c)
    {schedule : List ι} (h : Permitted advance P c schedule) : I (run advance c schedule) := by
  induction schedule using List.reverseRecOn with
  | nil => exact hc
  | append_singleton before i ih =>
    rw [run_concat]
    exact hstep _ i (ih h.of_append) (h before i [] rfl)

end Interleaving
end Effects
