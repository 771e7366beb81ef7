import QuantPlatform.Toss.World

namespace QuantPlatform
namespace Toss

open QuantPlatform.Core Effects

/-- `DEFAULT_GROUP_TPS`. -/
def defaultGroupTps : RateLimitGroup → ℚ
  | .auth => 5
  | .account => 1
  | .asset => 5
  | .stock => 5

/-- `_last_call_at[group] = time`, in the throttle of one of the clients. -/
def State.noteCall (s : State) (party : Party) (group : RateLimitGroup) (time : ℚ) : State :=
  { s with
    lastCallAt := Function.update s.lastCallAt party
      (Function.update (s.lastCallAt party) group (some time)) }

@[simp] theorem State.noteCall_log (s : State) (party : Party) (group : RateLimitGroup)
    (time : ℚ) : (s.noteCall party group time).log = s.log := rfl

@[simp] theorem State.noteCall_self (s : State) (party : Party) (group : RateLimitGroup)
    (time : ℚ) : (s.noteCall party group time).lastCallAt party group = some time := by
  simp [noteCall]

theorem State.noteCall_of_ne (s : State) {party party' : Party} {group group' : RateLimitGroup}
    (time : ℚ) (h : ¬ (party' = party ∧ group' = group)) :
    (s.noteCall party group time).lastCallAt party' group' = s.lastCallAt party' group' := by
  by_cases hparty : party' = party
  · have hgroup : group' ≠ group := fun hgroup => h ⟨hparty, hgroup⟩
    simp [noteCall, hparty, hgroup]
  · simp [noteCall, hparty]

structure GroupThrottle where
  tps : RateLimitGroup → ℚ

namespace GroupThrottle

/-- `GroupThrottle(group_tps)`: the given caps replace the defaults. -/
def create (groupTps : RateLimitGroup → Option ℚ) : GroupThrottle where
  tps group := (groupTps group).getD (defaultGroupTps group)

/-- The wait for the rest of the interval since the last call, if there was one. -/
def pause (env : Env) (throttle : GroupThrottle) (party : Party) (group : RateLimitGroup) :
    Option ℚ → Action Unit
  | none => return ()
  | some last => do
      let now ← readMonotonic env (.looked party group)
      let elapsed := now - last
      let remaining := 1 / throttle.tps group - elapsed
      if 0 < remaining then sleep (.finite remaining) else return ()

/-- `wait(group)`, by the throttle of one of the clients. -/
def wait (env : Env) (throttle : GroupThrottle) (party : Party) (group : RateLimitGroup) :
    Action Unit :=
  if throttle.tps group ≤ 0 then return ()
  else do
    let last ← Program.read fun s : State => s.lastCallAt party group
    throttle.pause env party group last
    let now ← readMonotonic env (.passed party group)
    Program.modify fun s : State => s.noteCall party group now

/-- What the throttle's readings, its note and a sleep keep, a wait keeps. -/
theorem wait_keeps {env : Env} {I : State → Prop} {E : Raised → State → Prop}
    (throttle : GroupThrottle) (party : Party) (group : RateLimitGroup)
    (hlooked : ∀ s, I s → I (s.logged (.looked party group)))
    (hpassed : ∀ s, I s → I (s.logged (.passed party group)))
    (hnoted : ∀ s time, I s → I (s.noteCall party group time))
    (hsleep : ∀ seconds, Program.Triple I (sleep seconds) (fun _ => I) E) :
    Program.Triple I (throttle.wait env party group) (fun _ => I) E := by
  refine Program.triple_ite (fun _ => Program.triple_pure fun _ hs => hs) fun _ => ?_
  refine Program.triple_bind (fun _ => I) (Program.triple_read fun _ hs => hs) fun last => ?_
  refine Program.triple_bind (fun _ => I) ?_ fun _ => ?_
  · cases last with
    | none => exact Program.triple_pure fun _ hs => hs
    | some last =>
      refine Program.triple_bind (fun _ => I) (triple_readMonotonic hlooked) fun now => ?_
      exact Program.triple_ite (fun _ => hsleep _) fun _ => Program.triple_pure fun _ hs => hs
  · refine Program.triple_bind (fun _ => I) (triple_readMonotonic hpassed) fun now => ?_
    exact Program.triple_modify fun s hs => hnoted s now hs

end GroupThrottle

end Toss
end QuantPlatform
