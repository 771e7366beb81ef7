/-
The scheduler of ingestion jobs.

A job's function may register and unregister jobs of its own while a tick walks over the job
table, and it may raise.  What a call of a function does is a script: it asks the scheduler
for something, goes on as it was answered, and ends.  The log notes what became of the jobs;
nothing of the scheduler reads it.

Runs of one registration are never closer than its interval, whatever the functions do:
`spaced_run`.
-/
import QuantPlatform.Core.Exceptions
import QuantPlatform.Python.Floats
import QuantPlatform.Python.LiveDict

namespace QuantPlatform
namespace Ingest

open QuantPlatform.Core Effects

/-- What `register_job` raises for a name that is taken. -/
def alreadyRegistered (name : String) : Raised where
  cls := .other .valueError
  text := s!"job {reprStr name} is already registered"

/-- What the iterator of the job table raises. -/
def changedDuringIteration (what : String) : Raised where
  cls := .other (.other "RuntimeError")
  text := s!"dictionary {what}"

/-- `delta.total_seconds()`. -/
def totalSeconds (delta : Int) : PyFloat := PyFloat.ofRat (delta / 1000000)

structure ScheduledJob (Fn : Type) where
  name : String
  intervalSeconds : PyFloat
  fn : Fn
  lastRunAt : Option Instant
  /-- Which registration of the run made it: what tells one job object from another. -/
  registration : Nat

def ScheduledJob.due {Fn : Type} (job : ScheduledJob Fn) (now : Instant) : Bool :=
  match job.lastRunAt with
  | none => true
  | some last => PyFloat.le job.intervalSeconds (totalSeconds (now - last))

/-- What a call of a function does, by the answers it gets. -/
inductive Script (Fn : Type)
  | finish (raised : Option Raised)
  | registerJob (name : String) (intervalSeconds : PyFloat) (fn : Fn)
      (next : Option Raised → Script Fn)
  | unregisterJob (name : String) (next : Script Fn)

inductive JobEvent (Fn : Type)
  | registered (job : ScheduledJob Fn)
  | unregistered (job : ScheduledJob Fn)
  | invoked (job : ScheduledJob Fn) (now : Instant)
  | ended (job : ScheduledJob Fn) (raised : Option Raised)

structure IngestScheduler (Fn : Type) where
  jobs : LiveDict String (ScheduledJob Fn)
  log : List (JobEvent Fn)

/-- What the scheduler does not decide. -/
structure Surroundings (Fn : Type) where
  /-- Whether an insertion rebuilds the job table, by how many there were before. -/
  rebuilds : Nat → Bool
  /-- What a function does when it is called, by how many calls there were before. -/
  behave : Fn → Nat → Script Fn

namespace JobEvent

variable {Fn : Type}

def invokedJob : JobEvent Fn → Option (ScheduledJob Fn)
  | .invoked job _ => some job
  | _ => none

def raisedException : JobEvent Fn → Option Raised
  | .ended _ raised => raised
  | _ => none

/-- When the job of a registration was last invoked. -/
def lastRun (registration : Nat) (last : Option Instant) : JobEvent Fn → Option Instant
  | .invoked job now => if job.registration = registration then some now else last
  | _ => last

end JobEvent

section Log

variable {Fn : Type} (log : List (JobEvent Fn))

/-- The registrations that were invoked, in order. -/
def invokedRegistrations : List Nat := (log.filterMap JobEvent.invokedJob).map (·.registration)

def lastRun (registration : Nat) : Option Instant := log.foldl (JobEvent.lastRun registration) none

/-- A job is invoked again after its interval at the earliest. -/
def Spaced : Prop :=
  ∀ before job now after, log = before ++ .invoked job now :: after →
    ∀ last, lastRun before job.registration = some last →
      PyFloat.le job.intervalSeconds (totalSeconds (now - last))

end Log

namespace IngestScheduler

variable {Fn : Type}

def init : IngestScheduler Fn where
  jobs := .empty
  log := []

variable (env : Surroundings Fn)

def registerJob (name : String) (intervalSeconds : PyFloat) (fn : Fn) :
    Program (IngestScheduler Fn) Raised Unit := do
  if ← Program.read fun s => s.jobs.contains name then
    Program.raise (alreadyRegistered name)
  else
    Program.modify fun s =>
      let job : ScheduledJob Fn :=
        { name, intervalSeconds, fn, lastRunAt := none, registration := s.jobs.insertions }
      { jobs := s.jobs.insertNew env.rebuilds name job, log := s.log ++ [.registered job] }

def unregisterJob (name : String) : Program (IngestScheduler Fn) Raised Unit :=
  Program.modify fun s =>
    { jobs := s.jobs.pop name
      log := s.log ++
        (s.jobs.items.filter fun item => item.1 = name).map fun item => .unregistered item.2 }

/-- The call of a function: it goes through its script. -/
def perform : Script Fn → Program (IngestScheduler Fn) Raised Unit
  | .finish none => pure ()
  | .finish (some e) => Program.raise e
  | .registerJob name intervalSeconds fn next => do
      match ← Program.caught (registerJob env name intervalSeconds fn) with
      | .ok () => perform (next none)
      | .error e => perform (next (some e))
  | .unregisterJob name next => do
      unregisterJob name
      perform next

/-- `job.last_run_at = now`, and the call begins. -/
def begin (now : Instant) (position : Nat) (item : String × ScheduledJob Fn)
    (s : IngestScheduler Fn) : IngestScheduler Fn where
  jobs := s.jobs.replace position (item.1, { item.2 with lastRunAt := some now })
  log := s.log ++ [.invoked item.2 now]

def raisedBy : Except Raised Unit → Option Raised
  | .ok () => none
  | .error e => some e

/-- The body of the loop of `tick`. -/
def visit (now : Instant) (position : Nat) (item : String × ScheduledJob Fn)
    (acc : List String × Option Raised) :
    Program (IngestScheduler Fn) Raised (List String × Option Raised) := do
  let job := item.2
  if !job.due now then
    return acc
  else
    let (ran, firstError) := acc
    let calls ← Program.read fun s => (invokedRegistrations s.log).length
    Program.modify (begin now position item)
    let outcome ← Program.caught (perform env (env.behave job.fn calls))
    Program.modify fun s => { s with log := s.log ++ [.ended job (raisedBy outcome)] }
    return (ran ++ [job.name], firstError.or (raisedBy outcome))

def tick (now : Instant) : Program (IngestScheduler Fn) Raised (List String) := do
  let (ran, firstError) ← LiveDict.forEach IngestScheduler.jobs
    (changedDuringIteration "changed size during iteration")
    (changedDuringIteration "keys changed during iteration") (visit env now) ([], none)
  match firstError with
  | some e => Program.raise e
  | none => return ran

end IngestScheduler

/-- What a caller does with the scheduler. -/
inductive Call (Fn : Type)
  | registerJob (name : String) (intervalSeconds : PyFloat) (fn : Fn)
  | unregisterJob (name : String)
  | tick (now : Instant)

section Runs

variable {Fn : Type} (env : Surroundings Fn)

/-- The state after a call, whether it returned or raised. -/
def Call.step (s : IngestScheduler Fn) : Call Fn → IngestScheduler Fn
  | .registerJob name intervalSeconds fn =>
      (IngestScheduler.registerJob env name intervalSeconds fn s).2
  | .unregisterJob name => (IngestScheduler.unregisterJob name s).2
  | .tick now => (IngestScheduler.tick env now s).2

def runCalls (calls : List (Call Fn)) : IngestScheduler Fn := calls.foldl (Call.step env) .init

end Runs

/-! ## The pace of a registration -/

section Log

variable {Fn : Type} {log : List (JobEvent Fn)}

theorem lastRun_append (log events : List (JobEvent Fn)) (registration : Nat) :
    lastRun (log ++ events) registration =
      events.foldl (JobEvent.lastRun registration) (lastRun log registration) :=
  List.foldl_append

theorem lastRun_silent {events : List (JobEvent Fn)}
    (h : ∀ event ∈ events, event.invokedJob = none) (registration : Nat) :
    lastRun (log ++ events) registration = lastRun log registration := by
  rw [lastRun_append]
  induction events with
  | nil => rfl
  | cons event events ih =>
    have hevent : JobEvent.lastRun registration (lastRun log registration) event =
        lastRun log registration := by
      cases event with
      | invoked job now => exact absurd (h _ List.mem_cons_self) nofun
      | registered job => rfl
      | unregistered job => rfl
      | ended job raised => rfl
    rw [List.foldl_cons, hevent]
    exact ih fun event hevent => h event (List.mem_cons_of_mem _ hevent)

theorem lastRun_invoked (job : ScheduledJob Fn) (now : Instant) (registration : Nat) :
    lastRun (log ++ [.invoked job now]) registration =
      if job.registration = registration then some now else lastRun log registration :=
  lastRun_append log [.invoked job now] registration

theorem Spaced.append {event : JobEvent Fn} (h : Spaced log)
    (hevent : ∀ job now, event = .invoked job now → ∀ last,
      lastRun log job.registration = some last →
        PyFloat.le job.intervalSeconds (totalSeconds (now - last))) :
    Spaced (log ++ [event]) := by
  intro before job now after hlog
  cases List.eq_nil_or_concat after with
  | inl hnil =>
    subst hnil
    obtain ⟨rfl, hlast⟩ := List.append_inj' hlog rfl
    exact hevent job now (List.singleton_inj.mp hlast)
  | inr hconcat =>
    obtain ⟨front, last, rfl⟩ := hconcat
    rw [List.concat_eq_append, ← List.cons_append, ← List.append_assoc] at hlog
    exact h before job now front (List.append_inj' hlog rfl).1

theorem Spaced.append_silent {events : List (JobEvent Fn)} (h : Spaced log)
    (hsilent : ∀ event ∈ events, event.invokedJob = none) : Spaced (log ++ events) := by
  induction events generalizing log with
  | nil =>
    rw [List.append_nil]
    exact h
  | cons event events ih =>
    have hevent : Spaced (log ++ [event]) := by
      refine h.append fun job now heq => ?_
      subst heq
      exact absurd (hsilent _ List.mem_cons_self) nofun
    rw [List.append_cons]
    exact ih hevent fun other hother => hsilent other (List.mem_cons_of_mem _ hother)

end Log

namespace IngestScheduler

variable {Fn : Type} {s : IngestScheduler Fn}

/-- The registrations of the table, in order. -/
def registrations (s : IngestScheduler Fn) : List Nat :=
  s.jobs.items.map fun item => item.2.registration

/-- The table knows when its jobs were last invoked, and no job was invoked too early. -/
structure Tracked (s : IngestScheduler Fn) : Prop where
  last : ∀ item ∈ s.jobs.items, item.2.lastRunAt = lastRun s.log item.2.registration
  ordered : s.registrations.Pairwise (· < ·)
  bounded : ∀ registration ∈ s.registrations, registration < s.jobs.insertions
  fresh : ∀ registration, s.jobs.insertions ≤ registration → lastRun s.log registration = none
  spaced : Spaced s.log

theorem tracked_init : Tracked (.init : IngestScheduler Fn) where
  last := nofun
  ordered := .nil
  bounded := nofun
  fresh _ _ := rfl
  spaced := by
    intro before job now after h
    cases before with
    | nil => cases h
    | cons event before => cases h

/-- Jobs may go, and what is noted of it calls no job. -/
theorem Tracked.of_sublist (h : Tracked s) {s' : IngestScheduler Fn} {events : List (JobEvent Fn)}
    (hitems : s'.jobs.items.Sublist s.jobs.items)
    (hinsertions : s'.jobs.insertions = s.jobs.insertions) (hlog : s'.log = s.log ++ events)
    (hsilent : ∀ event ∈ events, event.invokedJob = none) : Tracked s' where
  last item hitem := by
    rw [hlog, lastRun_silent hsilent]
    exact h.last item (hitems.subset hitem)
  ordered := h.ordered.sublist (hitems.map _)
  bounded registration hmem := hinsertions ▸ h.bounded registration ((hitems.map _).subset hmem)
  fresh registration hregistration := by
    rw [hlog, lastRun_silent hsilent]
    exact h.fresh registration (hinsertions ▸ hregistration)
  spaced := hlog ▸ h.spaced.append_silent hsilent

theorem Tracked.registered (h : Tracked s) {s' : IngestScheduler Fn} {name : String}
    {job : ScheduledJob Fn} (hitems : s'.jobs.items = s.jobs.items ++ [(name, job)])
    (hinsertions : s'.jobs.insertions = s.jobs.insertions + 1)
    (hlog : s'.log = s.log ++ [.registered job]) (hnever : job.lastRunAt = none)
    (hregistration : job.registration = s.jobs.insertions) : Tracked s' := by
  have hsilent : ∀ event ∈ [JobEvent.registered job], event.invokedJob = none := by
    intro event hevent
    rw [List.mem_singleton.mp hevent]
    rfl
  have hregistrations : s'.registrations = s.registrations ++ [s.jobs.insertions] := by
    rw [registrations, hitems, List.map_append, ← hregistration]
    rfl
  constructor
  · intro item hitem
    rw [hlog, lastRun_silent hsilent]
    rw [hitems] at hitem
    cases List.mem_append.mp hitem with
    | inl hold => exact h.last item hold
    | inr hnew =>
      rw [List.mem_singleton.mp hnew, hnever, hregistration]
      exact (h.fresh _ le_rfl).symm
  · rw [hregistrations]
    refine List.pairwise_append.mpr ⟨h.ordered, List.pairwise_singleton _ _, ?_⟩
    intro old hold new hnew
    rw [List.mem_singleton.mp hnew]
    exact h.bounded old hold
  · intro registration hmem
    rw [hregistrations] at hmem
    rw [hinsertions]
    cases List.mem_append.mp hmem with
    | inl hold => exact Nat.lt_succ_of_lt (h.bounded registration hold)
    | inr hnew =>
      rw [List.mem_singleton.mp hnew]
      exact Nat.lt_succ_self _
  · intro registration hle
    rw [hlog, lastRun_silent hsilent]
    exact h.fresh registration (by omega)
  · rw [hlog]
    exact h.spaced.append_silent hsilent

theorem registrations_begin {position : Nat} {item : String × ScheduledJob Fn}
    (h : s.jobs.entries[position]? = some (some item)) (now : Instant) :
    (begin now position item s).registrations = s.registrations := by
  obtain ⟨before, after, hitems, hreplaced⟩ :=
    LiveDict.items_replace h (item.1, { item.2 with lastRunAt := some now })
  show (s.jobs.replace position _).items.map _ = _
  rw [hreplaced, registrations, hitems, List.map_append, List.map_append]
  rfl

theorem Tracked.begin (h : Tracked s) {now : Instant} {position : Nat}
    {item : String × ScheduledJob Fn} (hitem : s.jobs.entries[position]? = some (some item))
    (hdue : item.2.due now) : Tracked (begin now position item s) := by
  obtain ⟨before, after, hitems, hreplaced⟩ :=
    LiveDict.items_replace hitem (item.1, { item.2 with lastRunAt := some now })
  have hmem : item ∈ s.jobs.items := hitems ▸ List.mem_append_right _ List.mem_cons_self
  have hordered := h.ordered
  rw [registrations, hitems, List.map_append, List.map_cons, List.pairwise_append,
    List.pairwise_cons] at hordered
  obtain ⟨_, ⟨hafter, _⟩, hbefore⟩ := hordered
  constructor
  · intro other hother
    replace hother : other ∈ before ++ (item.1, { item.2 with lastRunAt := some now }) :: after :=
      hreplaced ▸ hother
    show _ = lastRun (s.log ++ [.invoked item.2 now]) _
    rw [lastRun_invoked]
    -- The others are of other registrations.
    have hold : other ∈ s.jobs.items → item.2.registration ≠ other.2.registration →
        other.2.lastRunAt = if item.2.registration = other.2.registration then some now
          else lastRun s.log other.2.registration := by
      intro hother hne
      rw [if_neg hne]
      exact h.last other hother
    rcases List.mem_append.mp hother with hother | hother
    · refine hold (hitems ▸ List.mem_append_left _ hother) (Nat.ne_of_gt ?_)
      exact hbefore _ (List.mem_map_of_mem hother) _ List.mem_cons_self
    rcases List.mem_cons.mp hother with rfl | hother
    · rw [if_pos rfl]
    · refine hold (hitems ▸ List.mem_append_right _ (List.mem_cons_of_mem _ hother)) ?_
      exact Nat.ne_of_lt (hafter _ (List.mem_map_of_mem hother))
  · rw [registrations_begin hitem]
    exact h.ordered
  · rw [registrations_begin hitem]
    exact h.bounded
  · intro registration hle
    have hne : item.2.registration ≠ registration :=
      Nat.ne_of_lt ((h.bounded _ (List.mem_map_of_mem hmem)).trans_le hle)
    show lastRun (s.log ++ [.invoked item.2 now]) registration = none
    rw [lastRun_invoked, if_neg hne]
    exact h.fresh registration hle
  · refine h.spaced.append fun job runAt heq last hlast => ?_
    cases heq
    rw [← h.last item hmem] at hlast
    unfold ScheduledJob.due at hdue
    rw [hlast] at hdue
    exact hdue

variable {env : Surroundings Fn}

theorem triple_registerJob (name : String) (intervalSeconds : PyFloat) (fn : Fn) :
    Program.Triple Tracked (registerJob env name intervalSeconds fn) (fun _ => Tracked)
      fun _ => Tracked := by
  refine Program.triple_bind (fun _ => Tracked) (Program.triple_read fun s hs => hs)
    fun taken => Program.triple_ite (fun _ => Program.triple_raise fun s hs => hs) fun _ => ?_
  refine Program.triple_modify fun s hs => ?_
  exact hs.registered (LiveDict.items_insertNew _ _ _ _) rfl rfl rfl rfl

theorem triple_unregisterJob (name : String) :
    Program.Triple Tracked (unregisterJob name : Program (IngestScheduler Fn) Raised Unit)
      (fun _ => Tracked) fun _ => Tracked := by
  refine Program.triple_modify fun s hs => ?_
  refine hs.of_sublist ?_ rfl rfl ?_
  · show (s.jobs.pop name).items.Sublist _
    rw [LiveDict.items_pop]
    exact List.filter_sublist
  · intro event hevent
    obtain ⟨item, _, rfl⟩ := List.mem_map.mp hevent
    rfl

theorem triple_perform (script : Script Fn) :
    Program.Triple Tracked (perform env script) (fun _ => Tracked) fun _ => Tracked := by
  induction script with
  | finish raised =>
    cases raised with
    | none => exact Program.triple_pure fun s hs => hs
    | some e => exact Program.triple_raise fun s hs => hs
  | registerJob name intervalSeconds fn next ih =>
    rw [perform]
    refine Program.triple_bind (fun _ => Tracked)
      (Program.triple_caught (triple_registerJob name intervalSeconds fn)) fun answer => ?_
    cases answer with
    | ok u => exact ih none
    | error e => exact ih (some e)
  | unregisterJob name next ih =>
    exact Program.triple_bind (fun _ => Tracked) (triple_unregisterJob name) fun _ => ih

theorem triple_visit (now : Instant) (position : Nat) (item : String × ScheduledJob Fn)
    (acc : List String × Option Raised) :
    Program.Triple (fun s => Tracked s ∧ s.jobs.entries[position]? = some (some item))
      (visit env now position item acc) (fun _ => Tracked) fun _ => Tracked := by
  refine Program.triple_ite (fun _ => Program.triple_pure fun s hs => hs.1) fun hdue => ?_
  have hdue : item.2.due now = true := by
    rw [Bool.not_eq_true', Bool.not_eq_false] at hdue
    exact hdue
  refine Program.triple_bind
    (fun _ s => Tracked s ∧ s.jobs.entries[position]? = some (some item))
    (Program.triple_read fun s hs => hs) fun calls => ?_
  refine Program.triple_bind (fun _ => Tracked)
    (Program.triple_modify fun s hs => hs.1.begin hs.2 hdue) fun _ => ?_
  refine Program.triple_bind (fun _ => Tracked)
    (Program.triple_caught (triple_perform _)) fun outcome => ?_
  refine Program.triple_bind (fun _ => Tracked) (Program.triple_modify fun s hs => ?_)
    fun _ => Program.triple_pure fun s hs => hs
  refine hs.of_sublist (List.Sublist.refl _) rfl rfl fun event hevent => ?_
  rw [List.mem_singleton.mp hevent]
  rfl

theorem triple_tick (now : Instant) :
    Program.Triple Tracked (tick env now) (fun _ => Tracked) fun _ => Tracked := by
  refine Program.triple_bind (fun _ => Tracked)
    (LiveDict.triple_forEach (fun position item acc => triple_visit now position item acc) _)
    fun acc => ?_
  obtain ⟨ran, firstError⟩ := acc
  cases firstError with
  | none => exact Program.triple_pure fun s hs => hs
  | some e => exact Program.triple_raise fun s hs => hs

end IngestScheduler

theorem tracked_step {Fn : Type} {env : Surroundings Fn} {s : IngestScheduler Fn}
    (h : s.Tracked) (call : Call Fn) : (call.step env s).Tracked := by
  cases call with
  | registerJob name intervalSeconds fn =>
    exact (IngestScheduler.triple_registerJob name intervalSeconds fn).holds_after h
  | unregisterJob name => exact (IngestScheduler.triple_unregisterJob name).holds_after h
  | tick now => exact (IngestScheduler.triple_tick now).holds_after h

theorem tracked_foldl {Fn : Type} {env : Surroundings Fn} {s : IngestScheduler Fn}
    (h : s.Tracked) (calls : List (Call Fn)) : (calls.foldl (Call.step env) s).Tracked := by
  induction calls generalizing s with
  | nil => exact h
  | cons call calls ih => exact ih (tracked_step h call)

/-- In every run, whatever the functions do, a registration keeps its pace. -/
theorem spaced_run {Fn : Type} (env : Surroundings Fn) (calls : List (Call Fn)) :
    Spaced (runCalls env calls).log :=
  (tracked_foldl IngestScheduler.tracked_init calls).spaced

end Ingest
end QuantPlatform
