import QuantPlatform.Ingest.Scheduler

namespace QuantPlatform
namespace Ingest

open QuantPlatform.Core Effects

variable {Fn : Type}

/-- The exception of the first job that raised. -/
def firstRaised (log : List (JobEvent Fn)) : Option Raised := log.findSome? JobEvent.raisedException

namespace IngestScheduler

def dueJobs (s : IngestScheduler Fn) (now : Instant) : List (ScheduledJob Fn) :=
  (s.jobs.items.map Prod.snd).filter fun job => job.due now

/-- What a tick notes. -/
def tickLog (env : Surroundings Fn) (s : IngestScheduler Fn) (now : Instant) : List (JobEvent Fn) :=
  (tick env now s).2.log.drop s.log.length

end IngestScheduler

/-- A registration ends before it, or one after it in the table, is invoked. -/
def UnregisteredBeforeTurn (s : IngestScheduler Fn) (log : List (JobEvent Fn))
    (registration : Nat) : Prop :=
  ∃ before job after, log = before ++ .unregistered job :: after ∧
    job.registration = registration ∧
    ∀ other ∈ s.registrations, registration ≤ other → other ∉ invokedRegistrations before

/-- Every due job runs once, whatever the jobs do. -/
structure TickLaw (env : Surroundings Fn) (s : IngestScheduler Fn) (now : Instant) : Prop where
  once : ∀ job ∈ s.dueJobs now, ¬ UnregisteredBeforeTurn s (s.tickLog env now) job.registration →
    (invokedRegistrations (s.tickLog env now)).count job.registration = 1
  order : ((invokedRegistrations (s.tickLog env now)).filter (· ∈ s.registrations)).Sublist
    s.registrations
  times : ∀ item ∈ (IngestScheduler.tick env now s).2.jobs.items,
    item.2.registration ∈ invokedRegistrations (s.tickLog env now) → item.2.lastRunAt = some now
  raises : ∀ e, (IngestScheduler.tick env now s).1 = .error e ↔
    firstRaised (s.tickLog env now) = some e

/-- A property of the ticks of a run. -/
def EveryTick (env : Surroundings Fn) (P : IngestScheduler Fn → Instant → Prop) :
    IngestScheduler Fn → List (Call Fn) → Prop
  | _, [] => True
  | s, call :: calls =>
      (∀ now, call = .tick now → P s now) ∧ EveryTick env P (call.step env s) calls

/-- The script neither adds a job to a table with these names nor removes one. -/
def Script.Quiet (taken : String → Bool) : Script Fn → Prop
  | .finish _ => True
  | .registerJob name _ _ next =>
      taken name = true ∧ (next (some (alreadyRegistered name))).Quiet taken
  | .unregisterJob name next => taken name = false ∧ next.Quiet taken

/-- How a script ends that is answered so. -/
def Script.outcome : Script Fn → Option Raised
  | .finish raised => raised
  | .registerJob name _ _ next => (next (some (alreadyRegistered name))).outcome
  | .unregisterJob _ next => next.outcome

/-- No function that the tick is to call adds or removes a job. -/
def QuietTick (env : Surroundings Fn) (s : IngestScheduler Fn) (now : Instant) : Prop :=
  ∀ i job, (s.dueJobs now)[i]? = some job →
    (env.behave job.fn ((invokedRegistrations s.log).length + i)).Quiet s.jobs.contains

namespace IngestScheduler

def ending : Option Raised → Except Raised Unit
  | none => .ok ()
  | some e => .error e

theorem raisedBy_ending (raised : Option Raised) : raisedBy (ending raised) = raised := by
  cases raised with
  | none => rfl
  | some e => rfl

variable {env : Surroundings Fn} {s : IngestScheduler Fn}

/-- A quiet script leaves the scheduler as it was. -/
theorem perform_quiet {script : Script Fn} (h : script.Quiet s.jobs.contains) :
    perform env script s = (ending script.outcome, s) := by
  induction script with
  | finish raised =>
    cases raised with
    | none => rfl
    | some e => rfl
  | registerJob name intervalSeconds fn next ih =>
    obtain ⟨htaken, hnext⟩ := h
    have hrefused : registerJob env name intervalSeconds fn s =
        (.error (alreadyRegistered name), s) := by
      rw [registerJob, Program.bind_read, if_pos htaken]
      rfl
    have hcaught : Program.caught (registerJob env name intervalSeconds fn) s =
        ((.ok (.error (alreadyRegistered name)) : Except Raised _), s) := by
      rw [Program.caught, hrefused]
    rw [perform, Program.bind_of_ok hcaught]
    exact ih _ hnext
  | unregisterJob name next ih =>
    obtain ⟨habsent, hnext⟩ := h
    have hnothing : unregisterJob name s = (.ok (), s) := by
      show ((.ok () : Except Raised Unit),
        ({ jobs := s.jobs.pop name, log := s.log ++ _ } : IngestScheduler Fn)) = _
      rw [LiveDict.pop_of_not_contains habsent, LiveDict.filter_items_of_not_contains habsent,
        List.map_nil, List.append_nil]
    rw [perform, Program.bind_of_ok hnothing]
    exact ih hnext

end IngestScheduler

/-! ## A quiet tick -/

/-- What is noted when the jobs are invoked one after the other. -/
def invocations (env : Surroundings Fn) (now : Instant) :
    Nat → List (ScheduledJob Fn) → List (JobEvent Fn)
  | _, [] => []
  | calls, job :: jobs =>
      .invoked job now :: .ended job (env.behave job.fn calls).outcome ::
        invocations env now (calls + 1) jobs

theorem invocations_concat (env : Surroundings Fn) (now : Instant) (calls : Nat)
    (jobs : List (ScheduledJob Fn)) (job : ScheduledJob Fn) :
    invocations env now calls (jobs ++ [job]) =
      invocations env now calls jobs ++
        [.invoked job now, .ended job (env.behave job.fn (calls + jobs.length)).outcome] := by
  induction jobs generalizing calls with
  | nil => rfl
  | cons first jobs ih =>
    have hcalls : calls + 1 + jobs.length = calls + (first :: jobs).length := by
      rw [List.length_cons]
      omega
    rw [List.cons_append, invocations, invocations, ih, hcalls]
    rfl

theorem invokedRegistrations_invocations (env : Surroundings Fn) (now : Instant) (calls : Nat)
    (jobs : List (ScheduledJob Fn)) :
    invokedRegistrations (invocations env now calls jobs) = jobs.map (·.registration) := by
  induction jobs generalizing calls with
  | nil => rfl
  | cons job jobs ih =>
    have hrest := ih (calls + 1)
    exact congrArg (job.registration :: ·) hrest

theorem invokedRegistrations_append (log events : List (JobEvent Fn)) :
    invokedRegistrations (log ++ events) =
      invokedRegistrations log ++ invokedRegistrations events := by
  rw [invokedRegistrations, List.filterMap_append, List.map_append]
  rfl

theorem firstRaised_append (log events : List (JobEvent Fn)) :
    firstRaised (log ++ events) = (firstRaised log).or (firstRaised events) :=
  List.findSome?_append

theorem firstRaised_turn (job : ScheduledJob Fn) (now : Instant) (raised : Option Raised) :
    firstRaised [.invoked job now, .ended job raised] = raised := by
  cases raised with
  | none => rfl
  | some e => rfl

/-- The entry of a job once its turn is over. -/
def stamped (now : Instant) (item : String × ScheduledJob Fn) : String × ScheduledJob Fn :=
  (item.1, if item.2.due now then { item.2 with lastRunAt := some now } else item.2)

/-- The jobs that are due among some entries of the table. -/
def dueAmong (now : Instant) (entries : List (Option (String × ScheduledJob Fn))) :
    List (ScheduledJob Fn) :=
  ((entries.filterMap id).map Prod.snd).filter fun job => job.due now

theorem dueAmong_append (now : Instant)
    (front rest : List (Option (String × ScheduledJob Fn))) :
    dueAmong now (front ++ rest) = dueAmong now front ++ dueAmong now rest := by
  rw [dueAmong, List.filterMap_append, List.map_append, List.filter_append]
  rfl

theorem dueAmong_of_due {now : Instant} {item : String × ScheduledJob Fn}
    (h : item.2.due now = true) : dueAmong now [some item] = [item.2] := by
  show [item.2].filter (fun job => job.due now) = [item.2]
  rw [List.filter_cons, if_pos h]
  rfl

theorem dueAmong_of_not_due {now : Instant} {item : String × ScheduledJob Fn}
    (h : item.2.due now = false) : dueAmong now [some item] = [] := by
  show [item.2].filter (fun job => job.due now) = []
  rw [List.filter_cons, h]
  rfl

/-- Where the loop of a tick is that has passed some entries. -/
structure Passed (env : Surroundings Fn) (s : IngestScheduler Fn) (now : Instant)
    (before rest : List (Option (String × ScheduledJob Fn))) (acc : List String × Option Raised)
    (s' : IngestScheduler Fn) : Prop where
  front : ∃ front, s.jobs.entries = front ++ rest ∧
    before = front.map (Option.map (stamped now)) ∧
    s'.log = s.log ++
      invocations env now (invokedRegistrations s.log).length (dueAmong now front) ∧
    acc = ((dueAmong now front).map (·.name),
      firstRaised (invocations env now (invokedRegistrations s.log).length (dueAmong now front)))
  jobs : s'.jobs = { s.jobs with entries := before ++ rest }

section Table

variable (now : Instant) {table : LiveDict String (ScheduledJob Fn)}
  {front rest : List (Option (String × ScheduledJob Fn))}

/-- Stamps move no entry. -/
theorem items_stamped (h : table.entries = front ++ rest) :
    (({ table with entries := front.map (Option.map (stamped now)) ++ rest } :
      LiveDict String (ScheduledJob Fn)).items).map Prod.fst = table.items.map Prod.fst := by
  rw [LiveDict.items, LiveDict.items, h]
  show ((front.map (Option.map (stamped now)) ++ rest).filterMap id).map Prod.fst = _
  rw [List.filterMap_append, List.filterMap_append, List.map_append, List.map_append,
    LiveDict.filterMap_id_map, List.map_map]
  rfl

end Table

namespace IngestScheduler

variable {env : Surroundings Fn} {s : IngestScheduler Fn} {now : Instant}

theorem visit_of_not_due {item : String × ScheduledJob Fn} (h : item.2.due now = false)
    (position : Nat) (acc : List String × Option Raised) (s : IngestScheduler Fn) :
    visit env now position item acc s = (.ok acc, s) := by
  unfold visit
  dsimp only
  rw [h]
  rfl

/-- The turn of a due job whose function is quiet. -/
theorem visit_of_quiet {item : String × ScheduledJob Fn} (h : item.2.due now = true)
    {position calls : Nat} (hcalls : (invokedRegistrations s.log).length = calls)
    (hquiet : (env.behave item.2.fn calls).Quiet (begin now position item s).jobs.contains)
    (acc : List String × Option Raised) :
    visit env now position item acc s =
      (.ok (acc.1 ++ [item.2.name], acc.2.or (env.behave item.2.fn calls).outcome),
        { jobs := (begin now position item s).jobs
          log := s.log ++
            [.invoked item.2 now, .ended item.2 (env.behave item.2.fn calls).outcome] }) := by
  have hcaught : Program.caught (perform env (env.behave item.2.fn calls))
      (begin now position item s) =
      ((.ok (ending (env.behave item.2.fn calls).outcome) : Except Raised _),
        begin now position item s) := by
    rw [Program.caught, perform_quiet hquiet]
  unfold visit
  dsimp only
  rw [h, Bool.not_true, if_neg Bool.false_ne_true, Program.bind_read, hcalls,
    Program.bind_modify, Program.bind_of_ok hcaught, Program.bind_modify, raisedBy_ending]
  show _ = (_, ({ jobs := _, log := s.log ++ ([.invoked item.2 now] ++ [_]) } : IngestScheduler Fn))
  rw [← List.append_assoc]
  rfl

theorem stamped_of_not_due {item : String × ScheduledJob Fn} (h : item.2.due now = false) :
    stamped now item = item := by
  rw [stamped, h]
  rfl

theorem stamped_of_due {item : String × ScheduledJob Fn} (h : item.2.due now = true) :
    stamped now item = (item.1, { item.2 with lastRunAt := some now }) := by
  rw [stamped, h]
  rfl

section Turn

variable {before rest : List (Option (String × ScheduledJob Fn))}
  {acc : List String × Option Raised} {s' : IngestScheduler Fn}

/-- An entry that is not due is passed over. -/
theorem passed_skip {entry : Option (String × ScheduledJob Fn)}
    (h : Passed env s now before (entry :: rest) acc s') (hdue : dueAmong now [entry] = [])
    (hsame : entry.map (stamped now) = entry) :
    Passed env s now (before ++ [entry]) rest acc s' := by
  obtain ⟨⟨front, hentries, rfl, hlog, hacc⟩, hjobs⟩ := h
  have hnone : dueAmong now (front ++ [entry]) = dueAmong now front := by
    rw [dueAmong_append, hdue, List.append_nil]
  refine ⟨⟨front ++ [entry], ?_, ?_, ?_, ?_⟩, ?_⟩
  · rw [hentries, List.append_assoc]
    rfl
  · rw [List.map_append, List.map_singleton, hsame]
  · rw [hnone]
    exact hlog
  · rw [hnone]
    exact hacc
  · rw [hjobs, List.append_assoc]
    rfl

/-- An entry that is due has its turn. -/
theorem passed_turn {item : String × ScheduledJob Fn}
    (hpassed : Passed env s now before (some item :: rest) acc s')
    (hdue : item.2.due now = true) (h : QuietTick env s now) :
    ∃ acc' s'', visit env now before.length item acc s' = (.ok acc', s'') ∧
      Passed env s now (before ++ [some (stamped now item)]) rest acc' s'' := by
  obtain ⟨⟨front, hentries, rfl, hlog, hacc⟩, hjobs⟩ := hpassed
  have hentries' : s.jobs.entries = (front ++ [some item]) ++ rest := by
    rw [hentries, List.append_assoc]
    rfl
  have hbefore : front.map (Option.map (stamped now)) ++ [some (stamped now item)] =
      (front ++ [some item]).map (Option.map (stamped now)) := by
    rw [List.map_append]
    rfl
  have hone : dueAmong now (front ++ [some item]) = dueAmong now front ++ [item.2] := by
    rw [dueAmong_append, dueAmong_of_due hdue]
  have hcalls : (invokedRegistrations s'.log).length =
      (invokedRegistrations s.log).length + (dueAmong now front).length := by
    rw [hlog, invokedRegistrations_append, List.length_append,
      invokedRegistrations_invocations, List.length_map]
  have hbegun : (begin now (front.map (Option.map (stamped now))).length item s').jobs =
      { s.jobs with entries :=
          (front ++ [some item]).map (Option.map (stamped now)) ++ rest } := by
    show s'.jobs.replace _ _ = _
    rw [hjobs, LiveDict.replace_entries, ← hbefore, stamped_of_due hdue, List.append_assoc]
    rfl
  have hindex : (s.dueJobs now)[(dueAmong now front).length]? = some item.2 := by
    show (dueAmong now s.jobs.entries)[_]? = _
    rw [hentries', dueAmong_append, hone, List.append_assoc, List.getElem?_append_right le_rfl,
      Nat.sub_self]
    rfl
  have hquiet := h _ _ hindex
  rw [← LiveDict.contains_congr (items_stamped now hentries'), ← hbegun] at hquiet
  refine ⟨_, _, visit_of_quiet hdue hcalls hquiet acc,
    ⟨front ++ [some item], hentries', hbefore, ?_, ?_⟩, ?_⟩
  · rw [hone, invocations_concat, ← List.append_assoc, ← hlog]
  · rw [hone, invocations_concat, hacc, List.map_append, firstRaised_append, firstRaised_turn]
    rfl
  · rw [hbefore]
    exact hbegun

end Turn

theorem visits (h : QuietTick env s now) :
    LiveDict.Visits IngestScheduler.jobs (visit env now) s.jobs.size (Passed env s now) where
  entries before rest acc s' hpassed := by
    obtain ⟨⟨front, hentries, rfl, _, _⟩, hjobs⟩ := hpassed
    refine ⟨by rw [hjobs], ?_⟩
    have hkeys := congrArg List.length (items_stamped now hentries)
    rw [List.length_map, List.length_map] at hkeys
    rw [hjobs]
    exact hkeys
  hole before rest acc s' hpassed := passed_skip hpassed rfl rfl
  value before item rest acc s' hpassed := by
    cases hdue : item.2.due now with
    | false =>
      have hskipped := passed_skip hpassed (dueAmong_of_not_due hdue)
        (congrArg some (stamped_of_not_due hdue))
      exact ⟨acc, s', item, visit_of_not_due hdue _ acc s', hskipped⟩
    | true =>
      obtain ⟨acc', s'', hvisit, hafter⟩ := passed_turn hpassed hdue h
      exact ⟨acc', s'', stamped now item, hvisit, hafter⟩

/-- What a tick returns or raises after its loop. -/
def concluded (acc : List String × Option Raised) : Except Raised (List String) :=
  match acc.2 with
  | some e => .error e
  | none => .ok acc.1

/-- A quiet tick invokes the due jobs in order, and raises what was raised first. -/
theorem tick_quiet (h : QuietTick env s now) :
    tick env now s =
      (concluded ((s.dueJobs now).map (·.name), firstRaised
          (invocations env now (invokedRegistrations s.log).length (s.dueJobs now))),
        { jobs := { s.jobs with entries := s.jobs.entries.map (Option.map (stamped now)) }
          log := s.log ++
            invocations env now (invokedRegistrations s.log).length (s.dueJobs now) }) := by
  have hstart : Passed env s now [] s.jobs.entries ([], none) s :=
    ⟨⟨[], rfl, rfl, (List.append_nil _).symm, rfl⟩, rfl⟩
  obtain ⟨before, acc, s', hrun, ⟨front, hentries, rfl, hlog, rfl⟩, hjobs⟩ :=
    LiveDict.forEachFrom_run (visits h) hstart
  rw [List.append_nil] at hentries hjobs
  subst hentries
  have hloop : LiveDict.forEach IngestScheduler.jobs
      (changedDuringIteration "changed size during iteration")
      (changedDuringIteration "keys changed during iteration") (visit env now) ([], none) s =
      (.ok ((s.dueJobs now).map (·.name), firstRaised
        (invocations env now (invokedRegistrations s.log).length (s.dueJobs now))), s') := hrun
  have hstop : s' =
      { jobs := { s.jobs with entries := s.jobs.entries.map (Option.map (stamped now)) }
        log := s.log ++
          invocations env now (invokedRegistrations s.log).length (s.dueJobs now) } := by
    cases s'
    exact congr (congrArg IngestScheduler.mk hjobs) hlog
  rw [tick, Program.bind_of_ok hloop, hstop]
  generalize firstRaised _ = raised
  cases raised with
  | none => rfl
  | some e => rfl

theorem tickLog_quiet (h : QuietTick env s now) :
    s.tickLog env now =
      invocations env now (invokedRegistrations s.log).length (s.dueJobs now) := by
  rw [tickLog, tick_quiet h]
  exact List.drop_left

theorem nodup_registrations (h : s.Tracked) : s.registrations.Nodup :=
  h.ordered.imp Nat.ne_of_lt

/-- The jobs of the table, without their names. -/
theorem dueJobs_registrations (s : IngestScheduler Fn) (now : Instant) :
    ((s.dueJobs now).map (·.registration)).Sublist s.registrations := by
  have hall : s.registrations = (s.jobs.items.map Prod.snd).map (·.registration) := by
    rw [List.map_map]
    rfl
  rw [hall]
  exact List.filter_sublist.map _

/-- A quiet tick obeys the law. -/
theorem tickLaw_of_quiet (htracked : s.Tracked) (h : QuietTick env s now) :
    TickLaw env s now := by
  have hinvoked : invokedRegistrations (s.tickLog env now) =
      (s.dueJobs now).map (·.registration) := by
    rw [tickLog_quiet h, invokedRegistrations_invocations]
  have hsublist := dueJobs_registrations s now
  constructor
  · intro job hjob _
    rw [hinvoked]
    exact List.count_eq_one_of_mem (hsublist.nodup (nodup_registrations htracked))
      (List.mem_map_of_mem hjob)
  · rw [hinvoked]
    exact List.filter_sublist.trans hsublist
  · intro item hitem hmem
    rw [hinvoked] at hmem
    rw [tick_quiet h] at hitem
    have hitem : item ∈ s.jobs.items.map (stamped now) := by
      rw [LiveDict.items, ← LiveDict.filterMap_id_map]
      exact hitem
    obtain ⟨old, hold, rfl⟩ := List.mem_map.mp hitem
    obtain ⟨job, hjob, hregistration⟩ := List.mem_map.mp hmem
    obtain ⟨hjob, hdue⟩ := List.mem_filter.mp hjob
    obtain ⟨due, hdueItem, rfl⟩ := List.mem_map.mp hjob
    have hstampedRegistration : (stamped now old).2.registration = old.2.registration := by
      rw [stamped, apply_ite ScheduledJob.registration, ite_self]
    have hsame : due = old := List.inj_on_of_nodup_map (nodup_registrations htracked) hdueItem hold
      (hregistration.trans hstampedRegistration)
    subst hsame
    rw [stamped, if_pos hdue]
  · intro e
    rw [tickLog_quiet h, tick_quiet h]
    show concluded (_, firstRaised _) = _ ↔ _
    generalize firstRaised _ = raised
    cases raised with
    | none =>
      constructor
      · intro hraised
        cases hraised
      · intro hraised
        cases hraised
    | some first =>
      show (.error first : Except Raised _) = .error e ↔ _
      rw [Except.error.injEq, Option.some.injEq]

/-- The law of the ticks follows from what their functions do, tick by tick. -/
theorem everyTick_law (htracked : s.Tracked) {calls : List (Call Fn)}
    (h : EveryTick env (QuietTick env) s calls) : EveryTick env (TickLaw env) s calls := by
  induction calls generalizing s with
  | nil => trivial
  | cons call calls ih =>
    refine ⟨fun now hcall => tickLaw_of_quiet htracked (h.1 now hcall), ?_⟩
    exact ih (tracked_step htracked call) h.2

end IngestScheduler

/-- In a run none of whose ticks calls a function that adds or removes a job, each tick runs every
due job once, and raises what its first failing job raised; the runs of a registration are
its interval apart in every run. -/
theorem every_due_job_runs_once (env : Surroundings Fn) (calls : List (Call Fn))
    (h : EveryTick env (QuietTick env) .init calls) :
    EveryTick env (TickLaw env) .init calls ∧ Spaced (runCalls env calls).log :=
  ⟨IngestScheduler.everyTick_law IngestScheduler.tracked_init h, spaced_run env calls⟩

/-- The first of two jobs fails. -/
def firstFails : Surroundings String where
  rebuilds _ := false
  behave fn _ := .finish (if fn = "boom" then
    some { cls := .other (.other "RuntimeError"), text := "simulated ingestion failure" } else none)

def twoTicks : List (Call String) :=
  [ .registerJob "broken" (.finite 60) "boom", .registerJob "healthy" (.finite 60) "work",
    .tick 0, .unregisterJob "broken", .tick 60000000 ]

theorem failing_job_stops_no_other :
    EveryTick firstFails (TickLaw firstFails) .init twoTicks ∧
      Spaced (runCalls firstFails twoTicks).log := by
  refine every_due_job_runs_once firstFails twoTicks ?_
  have hquiet : ∀ s now, QuietTick firstFails s now := fun s now i job hjob => trivial
  exact ⟨fun now _ => hquiet _ now, fun now _ => hquiet _ now, fun now _ => hquiet _ now,
    fun now _ => hquiet _ now, fun now _ => hquiet _ now, trivial⟩

/-- The first of two jobs registers a third. -/
def firstRegisters : Surroundings String where
  rebuilds _ := false
  behave fn _ :=
    if fn = "spawn" then .registerJob "c" (.finite 60) "work" fun answer => .finish answer
    else .finish none

def oneTick : List (Call String) :=
  [.registerJob "a" (.finite 60) "spawn", .registerJob "b" (.finite 60) "work", .tick 0]

/-- The text of what a tick raised. -/
def raisedText : Except Raised (List String) → Option String
  | .ok _ => none
  | .error e => some e.text

theorem registering_job_stops_the_tick :
    let s := runCalls firstRegisters (oneTick.take 2)
    (s.dueJobs 0).map (·.name) = ["a", "b"] ∧
    raisedText (IngestScheduler.tick firstRegisters 0 s).1 =
      some "dictionary changed size during iteration" ∧
    invokedRegistrations (s.tickLog firstRegisters 0) = [0] ∧
    firstRaised (s.tickLog firstRegisters 0) = none ∧
    ¬ EveryTick firstRegisters (TickLaw firstRegisters) .init oneTick := by
  have hnone : firstRaised ((runCalls firstRegisters (oneTick.take 2)).tickLog firstRegisters 0) =
      none := Option.isNone_iff_eq_none.mp (by decide +kernel)
  have htext : raisedText (IngestScheduler.tick firstRegisters 0
      (runCalls firstRegisters (oneTick.take 2))).1 =
        some "dictionary changed size during iteration" := by
    decide +kernel
  refine ⟨by decide, htext, by decide +kernel, hnone, fun h => ?_⟩
  have hraises := (h.2.2.1 0 rfl).raises
  cases hresult : (IngestScheduler.tick firstRegisters 0
      (runCalls firstRegisters (oneTick.take 2))).1 with
  | ok ran =>
    rw [hresult] at htext
    cases htext
  | error e => cases hnone.symm.trans ((hraises e).mp hresult)

end Ingest
end QuantPlatform
