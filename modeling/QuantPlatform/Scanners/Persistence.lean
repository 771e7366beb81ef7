/-
`persist_scan_results`: a scan's candidates as one run and its signals.

Each call is a transaction of its own: one that raises is rolled back, and then
the store is what it was.  The only way a call raises here is a statement with
two signals under one key, that is, two candidates of one instrument.
-/
import QuantPlatform.Db.Runs
import QuantPlatform.Python.Raise
import QuantPlatform.Scanners.Pipeline

namespace QuantPlatform
namespace Scanners

open Db Relational

mutual

/-- `_json_safe`. -/
def jsonSafe : PyValue → PyValue
  | .decimal d => .str d.str
  | .datetime t => .str (Instant.isoformat t)
  | .dict entries => .dict (jsonSafeEntries entries)
  | .list items => .list (jsonSafeItems items)
  | .tuple items => .list (jsonSafeItems items)
  | .none => .none
  | .bool b => .bool b
  | .int n => .int n
  | .float repr => .float repr
  | .str s => .str s

def jsonSafeItems : List PyValue → List PyValue
  | [] => []
  | value :: rest => jsonSafe value :: jsonSafeItems rest

def jsonSafeEntries : List (String × PyValue) → List (String × PyValue)
  | [] => []
  | (name, value) :: rest => (name, jsonSafe value) :: jsonSafeEntries rest

end

/-- `None`, or what `f` makes of the value. -/
def orNone {α : Type} (f : α → PyValue) : Option α → PyValue
  | none => .none
  | some a => f a

def UniverseFilterResult.asdict (result : UniverseFilterResult) : PyValue :=
  .dict
    [("filter_name", .str result.filterName),
      ("passed", .bool result.passed),
      ("observed_value", result.observedValue),
      ("threshold", result.threshold),
      ("reason", orNone .str result.reason)]

def EventDetection.asdict (detection : EventDetection) : PyValue :=
  .dict
    [("event_name", .str detection.eventName),
      ("detected", .bool detection.detected),
      ("observed_value", detection.observedValue),
      ("threshold", detection.threshold),
      ("market", orNone .str detection.market),
      ("reason", orNone .str detection.reason)]

def StrategyConditionResult.asdict (result : StrategyConditionResult) : PyValue :=
  .dict
    [("condition_name", .str result.conditionName),
      ("field", .str result.field),
      ("passed", .bool result.passed),
      ("observed_value", orNone .decimal result.observedValue),
      ("threshold", .decimal result.threshold),
      ("reason", orNone .str result.reason)]

def StrategyScanResult.asdict (result : StrategyScanResult) : PyValue :=
  .dict
    [("strategy_id", .str result.strategyId),
      ("strategy_version", .str result.strategyVersion),
      ("instrument_symbol", .str result.instrumentSymbol),
      ("as_of", .datetime result.asOf),
      ("data_source", .str result.dataSource),
      ("condition_results", .list (result.conditionResults.map StrategyConditionResult.asdict))]

def candidatePayload (candidate : Candidate) : PyValue :=
  .dict
    [("universe_results",
        .list (candidate.universeResults.map fun r => jsonSafe r.asdict)),
      ("event_detections",
        .list (candidate.eventDetections.map fun d => jsonSafe d.asdict)),
      ("strategy_result", orNone (fun r => jsonSafe r.asdict) candidate.strategyResult),
      ("qualified", .bool candidate.qualified)]

/-- The arguments of `persist_scan_results`, with what its clock reads. -/
structure ScanCall where
  candidates : List Candidate
  modelName : String
  strategyId : String
  strategyVersion : String
  asOf : Instant
  idempotencyKey : Option String
  now : Instant

/-- The metrics a finished scan records. -/
def scanMetrics (candidateCount qualifiedCount : Nat) : PyValue :=
  .dict [("candidate_count", .int candidateCount), ("qualified_count", .int qualifiedCount)]

namespace ScanCall

def runValues (call : ScanCall) : RunValues :=
  { modelName := call.modelName
    strategyId := some call.strategyId
    strategyVersion := some call.strategyVersion
    idempotencyKey := call.idempotencyKey }

def signalRow (call : ScanCall) (runId : Nat) (candidate : Candidate) : SignalRow :=
  { modelRunId := runId
    instrumentId := candidate.instrumentId
    eventTime := call.asOf
    availableAt := call.now
    ingestedAt := call.now
    signalValue := some (Decimal.ofInt (if candidate.qualified then 1 else 0))
    signalLabel := some (if candidate.qualified then "qualified" else "not_qualified")
    payload := some (candidatePayload candidate)
    source := call.modelName }

def signalRows (call : ScanCall) (runId : Nat) : List SignalRow :=
  call.candidates.map (call.signalRow runId)

def metrics (call : ScanCall) : PyValue :=
  scanMetrics call.candidates.length (call.candidates.countP Candidate.qualified)

end ScanCall

/-- Returns the store and the number of signals. -/
def persistScanResults (store : RunStore) (call : ScanCall) : Except Exn (RunStore × Nat) := do
  let (started, runId, _) := store.startRun call.runValues
  let (written, _) ← started.upsertSignals (call.signalRows runId)
  let finished := written.finishRun runId "completed" (some call.metrics)
  return (finished, call.candidates.length)

namespace ScanCall

/-- The run the call writes under. -/
def runId (call : ScanCall) (store : RunStore) : Nat := (store.startRun call.runValues).2.1

/-- No two candidates of the call are of one instrument. -/
def Accepted (call : ScanCall) : Prop := (call.candidates.map Candidate.instrumentId).Nodup

instance (call : ScanCall) : Decidable call.Accepted :=
  inferInstanceAs (Decidable (List.Nodup _))

/-- The store once the call's transaction has ended. -/
def commit (call : ScanCall) (store : RunStore) : RunStore :=
  match persistScanResults store call with
  | .ok (written, _) => written
  | .error _ => store

end ScanCall

/-- The store after one call after another. -/
def persistAll (store : RunStore) (calls : List ScanCall) : RunStore :=
  calls.foldl (fun store call => call.commit store) store

theorem persistAll_append (store : RunStore) (calls : List ScanCall) (call : ScanCall) :
    persistAll store (calls ++ [call]) = call.commit (persistAll store calls) :=
  List.foldl_concat _ _ _ _

namespace ScanCall

variable (call : ScanCall) (store : RunStore)

theorem nodup_signalRows_iff (runId : Nat) :
    ((call.signalRows runId).map SignalRow.naturalKey).Nodup ↔ call.Accepted := by
  have hinj : Function.Injective fun instrumentId : Nat =>
      ({ modelRunId := runId, instrumentId, eventTime := call.asOf } : SignalKey) := by
    intro i j h
    exact congrArg SignalKey.instrumentId h
  have hmap : (call.signalRows runId).map SignalRow.naturalKey =
      (call.candidates.map Candidate.instrumentId).map fun instrumentId : Nat =>
        ({ modelRunId := runId, instrumentId, eventTime := call.asOf } : SignalKey) := by
    rw [signalRows, List.map_map, List.map_map]
    rfl
  rw [hmap]
  exact List.nodup_map_iff hinj

/-- The run started is there to be referred to. -/
theorem exists_started :
    ∃ r ∈ (store.startRun call.runValues).1.runs.rows,
      r.id = call.runId store ∧ r.idempotencyKey = call.idempotencyKey := by
  show ∃ r ∈ (store.runs.startRun call.runValues).1.rows,
    r.id = (store.runs.startRun call.runValues).2.1 ∧ r.idempotencyKey = call.idempotencyKey
  rcases store.runs.startRun_cases call.runValues with
    ⟨existing, key, hkey, hfind, heq⟩ | ⟨_, started, heq, hrows, _⟩
  · obtain ⟨hmem, hk⟩ := ModelRuns.findByKey_eq_some hfind
    rw [heq]
    exact ⟨existing, hmem, rfl, hk.trans hkey.symm⟩
  · rw [heq]
    refine ⟨call.runValues.toRow store.runs.nextId, ?_, rfl, rfl⟩
    show _ ∈ started.rows
    rw [hrows]
    exact List.mem_append_right _ (List.mem_singleton_self _)

/-- A call with two candidates of one instrument is refused. -/
theorem commit_of_not_accepted (h : ¬ call.Accepted) : call.commit store = store := by
  unfold commit
  cases hrun : persistScanResults store call with
  | error e => rfl
  | ok result =>
    obtain ⟨written, hwritten, _⟩ := Raise.bind_eq_ok_iff.mp hrun
    obtain ⟨signals, hsignals, _⟩ := Raise.bind_eq_ok_iff.mp hwritten
    have hnodup := ((upsertEventRows_ok_iff ..).mp hsignals).1
    exact absurd ((call.nodup_signalRows_iff _).mp hnodup) h

/-- Any other call writes its signals under its run and finishes the run. -/
theorem commit_of_accepted (h : call.Accepted) :
    (call.commit store).runs =
        (store.runs.startRun call.runValues).1.finishRun (call.runId store) "completed"
          (some call.metrics) ∧
      (call.commit store).signals =
        store.signals.insertAll updateSignal (call.signalRows (call.runId store)) := by
  have hnodup := (call.nodup_signalRows_iff (call.runId store)).mpr h
  have hsignals := (upsertEventRows_ok_iff updateSignal store.signals
    (call.signalRows (call.runId store)) _).mpr ⟨hnodup, rfl⟩
  have hrefer : ∀ s ∈ (store.signals.insertAll updateSignal
      (call.signalRows (call.runId store))).rows,
      ∃ r ∈ (store.startRun call.runValues).1.runs.rows, r.id = s.modelRunId := by
    intro s hs
    rcases (Table.mem_insertAll_iff _ hnodup _ _).mp hs with ⟨new, hnew, heq⟩ | ⟨hold, _⟩
    · obtain ⟨candidate, _, hcandidate⟩ := List.mem_map.mp hnew
      obtain ⟨r, hr, hid, _⟩ := call.exists_started store
      refine ⟨r, hr, ?_⟩
      have hkey := congrArg SignalKey.modelRunId
        (Table.key_stored updateSignal (t := store.signals) new)
      rw [← heq] at hkey
      rw [hid]
      exact (hkey.trans (by rw [← hcandidate]; rfl)).symm
    · exact (store.startRun call.runValues).1.modelRunId_mem s hold
  have hwritten : (store.startRun call.runValues).1.upsertSignals
      (call.signalRows (call.runId store)) =
      .ok ({ runs := (store.startRun call.runValues).1.runs
             signals := store.signals.insertAll updateSignal (call.signalRows (call.runId store))
             modelRunId_mem := hrefer }, (call.signalRows (call.runId store)).length) := by
    unfold RunStore.upsertSignals
    refine Raise.bind_eq_ok_iff.mpr ⟨_, hsignals, ?_⟩
    exact dif_pos hrefer
  have hrun : persistScanResults store call = .ok _ :=
    Raise.bind_eq_ok_iff.mpr ⟨_, hwritten, rfl⟩
  unfold commit
  rw [hrun]
  exact ⟨rfl, rfl⟩

/-- Every run but the call's own is left as it is. -/
theorem mem_runs_commit_of_ne {run : ModelRunRow} (h : run.id ≠ call.runId store) :
    run ∈ (call.commit store).runs.rows ↔ run ∈ store.runs.rows := by
  by_cases haccepted : call.Accepted
  · rw [(call.commit_of_accepted store haccepted).1, ModelRuns.mem_finishRun_iff]
    have hstarted : run ∈ (store.runs.startRun call.runValues).1.rows ↔ run ∈ store.runs.rows := by
      refine ⟨fun hrun => ?_, store.runs.mem_startRun _⟩
      rcases store.runs.startRun_cases call.runValues with
        ⟨existing, key, _, _, heq⟩ | ⟨_, started, heq, hrows, _⟩
      · rwa [heq] at hrun
      · have hid : call.runId store = store.runs.nextId := congrArg (fun s => s.2.1) heq
        rw [heq] at hrun
        change run ∈ started.rows at hrun
        rw [hrows, List.mem_append, List.mem_singleton] at hrun
        rcases hrun with hrun | hrun
        · exact hrun
        · exact absurd ((congrArg ModelRunRow.id hrun).trans hid.symm) h
    rw [hstarted]
    constructor
    · intro hrun
      rcases hrun with ⟨_, hrun⟩ | ⟨s, _, hid, heq⟩
      · exact hrun
      · exact absurd ((congrArg ModelRunRow.id heq).trans hid) h
    · exact fun hrun => Or.inl ⟨h, hrun⟩
  · rw [call.commit_of_not_accepted store haccepted]

/-- Every signal of another run is left as it is. -/
theorem mem_signals_commit_of_ne {signal : SignalRow} (h : signal.modelRunId ≠ call.runId store) :
    signal ∈ (call.commit store).signals.rows ↔ signal ∈ store.signals.rows := by
  by_cases haccepted : call.Accepted
  · have hkey : signal.naturalKey ∉
        (call.signalRows (call.runId store)).map SignalRow.naturalKey := by
      intro hk
      obtain ⟨new, hnew, heq⟩ := List.mem_map.mp hk
      obtain ⟨candidate, _, hcandidate⟩ := List.mem_map.mp hnew
      rw [← hcandidate] at heq
      exact h (congrArg SignalKey.modelRunId heq).symm
    rw [(call.commit_of_accepted store haccepted).2, Table.mem_rows_iff,
      Table.find_insertAll_of_not_mem _ hkey, ← Table.mem_rows_iff]
  · rw [call.commit_of_not_accepted store haccepted]

/-- The call's own run is one that was there under its key, or a new one that
records the call. -/
theorem own_run_cases (haccepted : call.Accepted) :
    (∃ run ∈ store.runs.rows, ∃ key, run.id = call.runId store ∧
        call.idempotencyKey = some key ∧ run.idempotencyKey = some key ∧
        { run with status := "completed", metrics := some call.metrics } ∈
          (call.commit store).runs.rows) ∨
      (call.runId store = store.runs.nextId ∧
        { call.runValues.toRow store.runs.nextId with
          status := "completed", metrics := some call.metrics } ∈
          (call.commit store).runs.rows) := by
  rw [(call.commit_of_accepted store haccepted).1]
  rcases store.runs.startRun_cases call.runValues with
    ⟨run, key, hkey, hfind, heq⟩ | ⟨_, started, heq, hrows, _⟩
  · have hid : call.runId store = run.id := congrArg (fun s => s.2.1) heq
    obtain ⟨hmem, hrunkey⟩ := ModelRuns.findByKey_eq_some hfind
    refine Or.inl ⟨run, hmem, key, hid.symm, hkey, hrunkey, ?_⟩
    rw [heq, ModelRuns.mem_finishRun_iff]
    exact Or.inr ⟨run, hmem, hid.symm, rfl⟩
  · have hid : call.runId store = store.runs.nextId := congrArg (fun s => s.2.1) heq
    refine Or.inr ⟨hid, ?_⟩
    rw [heq, hid]
    exact (store.runs.mem_finishRun_added_iff hrows rfl _ _ _).mpr (Or.inr rfl)

theorem exists_own_run (haccepted : call.Accepted) :
    ∃ run ∈ (call.commit store).runs.rows,
      run.id = call.runId store ∧ run.idempotencyKey = call.idempotencyKey ∧
        run.metrics = some call.metrics := by
  rcases call.own_run_cases store haccepted with
    ⟨run, _, key, hid, hkey, hrunkey, hmem⟩ | ⟨hid, hmem⟩
  · exact ⟨_, hmem, hid, hrunkey.trans hkey.symm, rfl⟩
  · exact ⟨_, hmem, hid.symm, rfl, rfl⟩

/-- A run that was there stays there under its id and key. -/
theorem exists_run_commit {run : ModelRunRow} (hrun : run ∈ store.runs.rows) :
    ∃ run' ∈ (call.commit store).runs.rows,
      run'.id = run.id ∧ run'.idempotencyKey = run.idempotencyKey := by
  by_cases hown : run.id = call.runId store
  · by_cases haccepted : call.Accepted
    · rcases call.own_run_cases store haccepted with ⟨found, hfound, _, hid, _, _, hmem⟩ | ⟨hid, _⟩
      · rw [store.runs.eq_of_id_eq hrun hfound (hown.trans hid.symm)]
        exact ⟨_, hmem, rfl, rfl⟩
      · exact absurd (hown.trans hid) (Nat.ne_of_lt (store.runs.id_lt run hrun))
    · rw [call.commit_of_not_accepted store haccepted]
      exact ⟨run, hrun, rfl, rfl⟩
  · exact ⟨run, (call.mem_runs_commit_of_ne store hown).mpr hrun, rfl, rfl⟩

/-- A run that was there is the call's own only through the key they share. -/
theorem key_of_runId_eq {run : ModelRunRow} (hrun : run ∈ store.runs.rows)
    (hid : run.id = call.runId store) :
    ∃ key, call.idempotencyKey = some key ∧ run.idempotencyKey = some key := by
  rcases store.runs.startRun_cases call.runValues with
    ⟨existing, key, hkey, hfind, heq⟩ | ⟨_, started, heq, _, _⟩
  · obtain ⟨hmem, hexisting⟩ := ModelRuns.findByKey_eq_some hfind
    have hown : call.runId store = existing.id := congrArg (fun s => s.2.1) heq
    rw [store.runs.eq_of_id_eq hrun hmem (hid.trans hown)]
    exact ⟨key, hkey, hexisting⟩
  · have hown : call.runId store = store.runs.nextId := congrArg (fun s => s.2.1) heq
    exact absurd (hid.trans hown) (Nat.ne_of_lt (store.runs.id_lt run hrun))

end ScanCall

end Scanners
end QuantPlatform
