/-
Verdicts as they are read back.

A call that is accepted writes one signal for each of its candidates.  Calls write under one run
when they share an idempotency key, and only then.  So the verdict on an instrument that a call
wrote last is what `get_signals_as_of` finds under its run, and it is found from the time of the
first call that wrote one there, whose date and source the row keeps.  Calls that a foreign key,
the width of a column or a NUL refuses write nothing and are left out.
-/
import QuantPlatform.Relational.Upserts
import QuantPlatform.Scanners.Resume

namespace QuantPlatform

namespace Db

open Relational

/-- `ORDER BY event_time`. -/
abbrev SignalOrder : Type := OrderBy SignalRow fun a b => a.eventTime ≤ b.eventTime

/-- `get_signals_as_of`. -/
def getSignalsAsOf (order : SignalOrder) (signals : Signals) (instrumentId : Nat)
    (start stop asOf : Instant) (modelRunId : Option Nat) : List SignalRow :=
  order.arrange <| signals.rows.filter fun r =>
    r.instrumentId = instrumentId ∧ start ≤ r.eventTime ∧ r.eventTime ≤ stop ∧
      r.availableAt ≤ asOf ∧ ∀ id ∈ modelRunId, r.modelRunId = id

theorem overwrites_updateSignal : Table.Overwrites updateSignal where
  set_set _ _ _ := rfl
  set_self _ := rfl

/-- The signal under a key, once its date is reached. -/
theorem filter_getSignalsAsOf (order : SignalOrder) (signals : Signals) (k : SignalKey)
    {start stop asOf : Instant} (hstart : start ≤ k.eventTime) (hstop : k.eventTime ≤ stop) :
    (getSignalsAsOf order signals k.instrumentId start stop asOf (some k.modelRunId)).filter
        (fun r => r.eventTime = k.eventTime) =
      ((signals.find k).filter fun r => r.availableAt ≤ asOf).toList := by
  have hmem : ∀ r, r ∈ (getSignalsAsOf order signals k.instrumentId start stop asOf
      (some k.modelRunId)).filter (fun r => r.eventTime = k.eventTime) ↔
        (signals.find k).filter (fun r => r.availableAt ≤ asOf) = some r := by
    intro r
    rw [Option.filter_eq_some_iff, Table.find_eq_some_iff, getSignalsAsOf, List.mem_filter,
      OrderBy.mem_arrange_iff, List.mem_filter]
    simp only [decide_eq_true_eq, Option.mem_some_iff, forall_eq']
    constructor
    · rintro ⟨⟨hr, hinstrument, _, _, hat, hrun⟩, htime⟩
      refine ⟨⟨hr, ?_⟩, hat⟩
      cases k
      cases hinstrument
      cases htime
      cases hrun
      rfl
    · rintro ⟨⟨hr, rfl⟩, hat⟩
      exact ⟨⟨hr, rfl, hstart, hstop, hat, rfl⟩, rfl⟩
  have hnodup : ((getSignalsAsOf order signals k.instrumentId start stop asOf
      (some k.modelRunId)).filter fun r => r.eventTime = k.eventTime).Nodup :=
    ((order.perm _).nodup_iff.mpr (signals.rows_nodup.filter _)).filter _
  cases hfind : (signals.find k).filter fun r => r.availableAt ≤ asOf with
  | none =>
    refine List.eq_nil_iff_forall_not_mem.mpr fun r hr => ?_
    rw [hmem, hfind] at hr
    cases hr
  | some r =>
    refine List.perm_singleton.mp ((List.perm_ext_iff_of_nodup hnodup
      (List.nodup_singleton r)).mpr fun s => ?_)
    rw [hmem, hfind, Option.some.injEq, List.mem_singleton]
    exact eq_comm

end Db

namespace Scanners

open Db Relational

namespace ScanCall

/-- The calls share an idempotency key. -/
def SameRun (call other : ScanCall) : Prop :=
  call.idempotencyKey ≠ none ∧ other.idempotencyKey = call.idempotencyKey

instance (call other : ScanCall) : Decidable (call.SameRun other) :=
  inferInstanceAs (Decidable (_ ∧ _))

theorem sameRun_iff {call other : ScanCall} : call.SameRun other ↔
    ∃ key, call.idempotencyKey = some key ∧ other.idempotencyKey = some key := by
  unfold SameRun
  constructor
  · rintro ⟨hsome, hsame⟩
    obtain ⟨key, hkey⟩ := Option.ne_none_iff_exists'.mp hsome
    exact ⟨key, hkey, hsame.trans hkey⟩
  · rintro ⟨key, hkey, hother⟩
    exact ⟨by rw [hkey]; exact Option.some_ne_none key, hother.trans hkey.symm⟩

/-- The other call writes a verdict on the instrument where this one does. -/
def Shares (call : ScanCall) (instrumentId : Nat) (other : ScanCall) : Prop :=
  other.Accepted ∧ call.SameRun other ∧ other.asOf = call.asOf ∧
    instrumentId ∈ other.candidates.map Candidate.instrumentId

instance (call : ScanCall) (instrumentId : Nat) (other : ScanCall) :
    Decidable (call.Shares instrumentId other) :=
  inferInstanceAs (Decidable (_ ∧ _ ∧ _ ∧ _))

/-- The first call that wrote a verdict on the instrument where this one does. -/
def firstWriter (call : ScanCall) (instrumentId : Nat) (before : List ScanCall) : ScanCall :=
  (before.find? fun other => call.Shares instrumentId other).getD call

variable {call other : ScanCall} {store : RunStore}

/-- What the call writes to the signals. -/
def written (call : ScanCall) (store : RunStore) : List SignalRow :=
  if call.Accepted then call.signalRows (call.runId store) else []

theorem signals_commit (call : ScanCall) (store : RunStore) :
    (call.commit store).signals = store.signals.insertAll updateSignal (call.written store) := by
  unfold written
  split_ifs with haccepted
  · exact (call.commit_of_accepted store haccepted).2
  · rw [call.commit_of_not_accepted store haccepted]
    rfl

/-- A run found under the call's key is the call's own. -/
theorem runId_of_key {run : ModelRunRow} (hrun : run ∈ store.runs.rows) {key : String}
    (hkey : call.idempotencyKey = some key) (hrunkey : run.idempotencyKey = some key) :
    call.runId store = run.id := by
  have hfind := store.runs.findByKey_of_mem hrun hrunkey
  rcases store.runs.startRun_cases call.runValues with
    ⟨existing, key', hkey', hfind', heq⟩ | ⟨hnone, _⟩
  · have hsame : key' = key := Option.some.inj (hkey'.symm.trans hkey)
    rw [hsame, hfind] at hfind'
    rw [Option.some.inj hfind']
    exact congrArg (fun s => s.2.1) heq
  · rw [hnone key hkey] at hfind
    cases hfind

theorem runId_eq_iff {run : ModelRunRow} (hrun : run ∈ store.runs.rows) :
    call.runId store = run.id ↔
      ∃ key, call.idempotencyKey = some key ∧ run.idempotencyKey = some key := by
  constructor
  · intro hid
    exact call.key_of_runId_eq store hrun hid.symm
  · rintro ⟨key, hkey, hrunkey⟩
    exact runId_of_key hrun hkey hrunkey

end ScanCall

/-- All that the calls write. -/
def writes (store : RunStore) : List ScanCall → List SignalRow
  | [] => []
  | call :: rest => call.written store ++ writes (call.commit store) rest

theorem signals_persistAll (store : RunStore) (calls : List ScanCall) :
    (persistAll store calls).signals = store.signals.insertAll updateSignal (writes store calls) := by
  induction calls generalizing store with
  | nil => rfl
  | cons call rest ih =>
    refine (ih (call.commit store)).trans ?_
    rw [call.signals_commit]
    exact List.foldl_append.symm

theorem writes_append (store : RunStore) (before later : List ScanCall) :
    writes store (before ++ later) =
      writes store before ++ writes (persistAll store before) later := by
  induction before generalizing store with
  | nil => rfl
  | cons call rest ih =>
    rw [List.cons_append, writes, writes, ih, List.append_assoc]
    rfl

theorem exists_run_persistAll {store : RunStore} (calls : List ScanCall) {run : ModelRunRow}
    (hrun : run ∈ store.runs.rows) :
    ∃ run' ∈ (persistAll store calls).runs.rows,
      run'.id = run.id ∧ run'.idempotencyKey = run.idempotencyKey := by
  induction calls generalizing store run with
  | nil => exact ⟨run, hrun, rfl, rfl⟩
  | cons call rest ih =>
    obtain ⟨run', hrun', hid, hkey⟩ := call.exists_run_commit store hrun
    obtain ⟨run'', hrun'', hid', hkey'⟩ := ih hrun'
    exact ⟨run'', hrun'', hid'.trans hid, hkey'.trans hkey⟩

/-- A later call writes under the run of an earlier one when they share a key. -/
theorem runId_later_iff {store : RunStore} {first call : ScanCall} (hfirst : first.Accepted)
    (between : List ScanCall) :
    call.runId (persistAll (first.commit store) between) = first.runId store ↔
      call.SameRun first := by
  obtain ⟨run, hrun, hid, hkey, _⟩ := first.exists_own_run store hfirst
  obtain ⟨run', hrun', hid', hkey'⟩ := exists_run_persistAll between hrun
  rw [← hid, ← hid', ScanCall.runId_eq_iff hrun', hkey', hkey, ScanCall.sameRun_iff]

namespace ScanCall

variable {call : ScanCall} {store : RunStore} {k : SignalKey}

theorem mem_signalRows {id : Nat} {r : SignalRow} (hr : r ∈ call.signalRows id) :
    r.modelRunId = id ∧ r.eventTime = call.asOf ∧ r.availableAt = call.now ∧
      r.source = call.modelName ∧ r.instrumentId ∈ call.candidates.map Candidate.instrumentId := by
  obtain ⟨candidate, hcandidate, rfl⟩ := List.mem_map.mp hr
  exact ⟨rfl, rfl, rfl, rfl, List.mem_map_of_mem hcandidate⟩

/-- The call writes under the key. -/
def WritesAt (call : ScanCall) (store : RunStore) (k : SignalKey) : Prop :=
  call.Accepted ∧ call.runId store = k.modelRunId ∧ call.asOf = k.eventTime ∧
    k.instrumentId ∈ call.candidates.map Candidate.instrumentId

theorem exists_written_iff :
    (∃ r ∈ call.written store, r.naturalKey = k) ↔ call.WritesAt store k := by
  unfold written WritesAt
  split_ifs with haccepted
  · rw [and_iff_right haccepted]
    constructor
    · rintro ⟨r, hr, rfl⟩
      obtain ⟨hrun, htime, _, _, hinstrument⟩ := mem_signalRows hr
      exact ⟨hrun.symm, htime.symm, hinstrument⟩
    · rintro ⟨hrun, htime, hinstrument⟩
      obtain ⟨candidate, hcandidate, hid⟩ := List.mem_map.mp hinstrument
      refine ⟨call.signalRow (call.runId store) candidate, List.mem_map_of_mem hcandidate, ?_⟩
      cases k
      cases hrun
      cases htime
      cases hid
      rfl
  · exact iff_of_false (by simp) fun h => haccepted h.1

/-- The date and the source of what the call writes are its own. -/
theorem dated_of_mem_written {r : SignalRow} (hr : r ∈ call.written store) :
    (r.availableAt, r.source) = (call.now, call.modelName) := by
  unfold written at hr
  split_ifs at hr with haccepted
  · obtain ⟨_, _, hat, hsource, _⟩ := mem_signalRows hr
    exact Prod.ext hat hsource
  · cases hr

end ScanCall

section Key

variable {call : ScanCall} {instrumentId : Nat}

theorem find_writes (store : RunStore) (before : List ScanCall) {k : SignalKey}
    (hrun : k.modelRunId = call.runId (persistAll store before)) (htime : k.eventTime = call.asOf) :
    ((writes store before).find? fun r => r.naturalKey = k).map
        (fun r => (r.availableAt, r.source)) =
      (before.find? fun other => call.Shares k.instrumentId other).map
        fun other => (other.now, other.modelName) := by
  induction before generalizing store with
  | nil => rfl
  | cons other rest ih =>
    have hshares : call.Shares k.instrumentId other ↔ other.WritesAt store k := by
      unfold ScanCall.Shares ScanCall.WritesAt
      refine and_congr_right fun haccepted => ?_
      rw [hrun, htime]
      exact and_congr ((runId_later_iff haccepted rest).symm.trans eq_comm) Iff.rfl
    rw [writes, List.find?_append]
    by_cases hwrites : other.WritesAt store k
    · rw [List.find?_cons_of_pos (by simpa using hshares.mpr hwrites)]
      cases hfind : (other.written store).find? fun r => r.naturalKey = k with
      | none =>
        obtain ⟨r, hr, hkey⟩ := ScanCall.exists_written_iff.mpr hwrites
        exact absurd (decide_eq_true hkey) (List.find?_eq_none.mp hfind r hr)
      | some r =>
        exact congrArg some (ScanCall.dated_of_mem_written (List.mem_of_find?_eq_some hfind))
    · rw [List.find?_cons_of_neg (by simpa using mt hshares.mp hwrites)]
      have hnone : (other.written store).find? (fun r => r.naturalKey = k) = none := by
        rw [List.find?_eq_none]
        intro r hr hkey
        exact hwrites (ScanCall.exists_written_iff.mp ⟨r, hr, of_decide_eq_true hkey⟩)
      rw [hnone, Option.none_or]
      exact ih (other.commit store) hrun

theorem filter_writes_later {store : RunStore} {later : List ScanCall} {k : SignalKey}
    {run : ModelRunRow} (hrun : run ∈ store.runs.rows) (hid : run.id = k.modelRunId)
    (hkey : run.idempotencyKey = call.idempotencyKey) (htime : k.eventTime = call.asOf)
    (hlast : ∀ other ∈ later, ¬ call.Shares k.instrumentId other) :
    (writes store later).filter (fun r => r.naturalKey = k) = [] := by
  induction later generalizing store run with
  | nil => rfl
  | cons other rest ih =>
    rw [List.forall_mem_cons] at hlast
    obtain ⟨run', hrun', hid', hkey'⟩ := other.exists_run_commit store hrun
    rw [writes, List.filter_append, ih hrun' (hid'.trans hid) (hkey'.trans hkey) hlast.2,
      List.append_nil, List.filter_eq_nil_iff]
    intro r hr hrkey
    obtain ⟨haccepted, hown, hat, hinstrument⟩ :=
      ScanCall.exists_written_iff.mp ⟨r, hr, of_decide_eq_true hrkey⟩
    refine hlast.1 ⟨haccepted, ?_, hat.trans htime, hinstrument⟩
    rw [← hid, ScanCall.runId_eq_iff hrun, hkey] at hown
    obtain ⟨shared, hother, hcall⟩ := hown
    exact ScanCall.sameRun_iff.mpr ⟨shared, hcall, hother⟩

end Key

/-! ## Reading back -/

theorem filter_eq_singleton {α β : Type} [DecidableEq β] {f : α → β} {xs : List α}
    (h : (xs.map f).Nodup) {x : α} (hx : x ∈ xs) : xs.filter (fun y => f y = f x) = [x] := by
  have hnodup : (xs.filter fun y => f y = f x).Nodup := (h.of_map f).filter _
  refine List.perm_singleton.mp ((List.perm_ext_iff_of_nodup hnodup
    (List.nodup_singleton x)).mpr fun y => ?_)
  rw [List.mem_filter, decide_eq_true_eq, List.mem_singleton]
  constructor
  · rintro ⟨hy, heq⟩
    exact List.inj_on_of_nodup_map h hy hx heq
  · rintro rfl
    exact ⟨hx, rfl⟩

namespace ScanCall

variable {call : ScanCall} {before later : List ScanCall} {candidate : Candidate}

/-- The key of the call's verdict on an instrument. -/
def keyAfter (call : ScanCall) (before : List ScanCall) (instrumentId : Nat) : SignalKey where
  modelRunId := call.runId (persistAll .empty before)
  instrumentId
  eventTime := call.asOf

/-- The verdict as it is stored: dated by the first call that wrote one there. -/
def verdict (call : ScanCall) (before : List ScanCall) (candidate : Candidate) : SignalRow :=
  { call.signalRow (call.runId (persistAll .empty before)) candidate with
    availableAt := (call.firstWriter candidate.instrumentId before).now
    source := (call.firstWriter candidate.instrumentId before).modelName }

theorem filter_writes (haccepted : call.Accepted) (hcandidate : candidate ∈ call.candidates)
    (hlast : ∀ other ∈ later, ¬ call.Shares candidate.instrumentId other) :
    (writes .empty (before ++ call :: later)).filter
        (fun r => r.naturalKey = call.keyAfter before candidate.instrumentId) =
      (writes .empty before).filter
          (fun r => r.naturalKey = call.keyAfter before candidate.instrumentId) ++
        [call.signalRow (call.runId (persistAll .empty before)) candidate] := by
  have hown : (call.written (persistAll .empty before)).filter
      (fun r => r.naturalKey = call.keyAfter before candidate.instrumentId) =
        [call.signalRow (call.runId (persistAll .empty before)) candidate] := by
    unfold written
    rw [if_pos haccepted]
    exact filter_eq_singleton ((call.nodup_signalRows_iff _).mpr haccepted)
      (List.mem_map_of_mem hcandidate)
  obtain ⟨run, hrun, hid, hkey, _⟩ := call.exists_own_run (persistAll .empty before) haccepted
  rw [writes_append, writes, List.filter_append, List.filter_append, hown,
    filter_writes_later hrun hid hkey rfl hlast, List.append_nil]

theorem find_verdict (haccepted : call.Accepted) (hcandidate : candidate ∈ call.candidates)
    (hlast : ∀ other ∈ later, ¬ call.Shares candidate.instrumentId other) :
    (persistAll .empty (before ++ call :: later)).signals.find
        (call.keyAfter before candidate.instrumentId) = some (call.verdict before candidate) := by
  have hdated := @find_writes call .empty before (call.keyAfter before candidate.instrumentId)
    rfl rfl
  rw [signals_persistAll]
  refine (Table.find_insertAll_empty overwrites_updateSignal _ _).trans ?_
  unfold Table.observed
  rw [filter_writes haccepted hcandidate hlast]
  dsimp only
  rw [List.getLast?_concat, List.head?_append, List.head?_filter]
  unfold verdict firstWriter
  have hsame : (call.keyAfter before candidate.instrumentId).instrumentId =
      candidate.instrumentId := rfl
  rw [hsame] at hdated
  cases hfind : (writes .empty before).find? fun r =>
      r.naturalKey = call.keyAfter before candidate.instrumentId with
  | none =>
    rw [hfind] at hdated
    rw [Option.map_eq_none_iff.mp hdated.symm]
    rfl
  | some first =>
    rw [hfind] at hdated
    obtain ⟨other, hother, hpair⟩ := Option.map_eq_some_iff.mp hdated.symm
    have hkey : first.naturalKey = call.keyAfter before candidate.instrumentId :=
      by simpa using List.find?_some hfind
    have hrun := congrArg SignalKey.modelRunId hkey
    have hinstrument := congrArg SignalKey.instrumentId hkey
    have htime := congrArg SignalKey.eventTime hkey
    rw [hother]
    cases first
    cases hrun
    cases hinstrument
    cases htime
    cases hpair
    rfl

end ScanCall

/-- Whatever else is persisted, a reader of the run finds of the candidate the last verdict
that was written on it there, as soon as the first one is available. -/
theorem last_verdict_read_back (order : SignalOrder) {call : ScanCall}
    {before later : List ScanCall} {candidate : Candidate} (haccepted : call.Accepted)
    (hcandidate : candidate ∈ call.candidates)
    (hlast : ∀ other ∈ later, ¬ call.Shares candidate.instrumentId other)
    {start stop : Instant} (hstart : start ≤ call.asOf) (hstop : call.asOf ≤ stop)
    (asOf : Instant) :
    (getSignalsAsOf order (persistAll .empty (before ++ call :: later)).signals
          candidate.instrumentId start stop asOf
          (some (call.runId (persistAll .empty before)))).filter
        (fun r => r.eventTime = call.asOf) =
      if (call.firstWriter candidate.instrumentId before).now ≤ asOf then
        [call.verdict before candidate]
      else [] := by
  have hread := @filter_getSignalsAsOf order
    (persistAll .empty (before ++ call :: later)).signals
    (call.keyAfter before candidate.instrumentId) start stop asOf hstart hstop
  rw [ScanCall.find_verdict haccepted hcandidate hlast] at hread
  refine hread.trans ?_
  have hdate : (call.verdict before candidate).availableAt =
      (call.firstWriter candidate.instrumentId before).now := rfl
  rw [Option.filter_some, hdate]
  simp only [decide_eq_true_eq]
  split_ifs
  · rfl
  · rfl

/-- An attempt that finds less, after one that found more and before one for the other. -/
theorem rerun_read_back :
    ∃ candidate ∈ (attempt [1]).candidates,
      (getSignalsAsOf (OrderBy.byColumn SignalRow.eventTime)
            (persistAll .empty ([attempt [1, 2]] ++ attempt [1] :: [attempt [2]])).signals
            candidate.instrumentId 0 9 6
            (some ((attempt [1]).runId (persistAll .empty [attempt [1, 2]])))).filter
          (fun r => r.eventTime = (attempt [1]).asOf) =
        if ((attempt [1]).firstWriter candidate.instrumentId [attempt [1, 2]]).now ≤ 6 then
          [(attempt [1]).verdict [attempt [1, 2]] candidate]
        else [] :=
  ⟨_, List.mem_cons_self, @last_verdict_read_back (OrderBy.byColumn SignalRow.eventTime)
    (attempt [1]) [attempt [1, 2]] [attempt [2]] _ (by decide) List.mem_cons_self (by decide) 0 9
    (by decide) (by decide) 6⟩

end Scanners
end QuantPlatform
