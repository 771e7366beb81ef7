/-
Model runs and the signals written under them.

A run is found by its `idempotency_key` alone, and created when there is none
under it or no key is given.  Finishing a run overwrites its metrics.  Signals
are a plain observed-event table keyed by run, instrument and event time.

Calls follow one another, so the insert of `get_or_insert` never loses a race to
another one.  The times a run started and finished at are left out: nothing reads
them.
-/
import QuantPlatform.Db.Upsert

namespace QuantPlatform
namespace Db

open Relational

structure ModelRunRow where
  id : Nat
  modelName : String
  modelVersion : Option String
  strategyId : Option String
  strategyVersion : Option String
  status : String
  idempotencyKey : Option String
  params : Option PyValue
  metrics : Option PyValue

/-- The table, whose keys are unique where they are not `NULL`, and its identity
sequence. -/
structure ModelRuns where
  rows : List ModelRunRow
  nextId : Nat
  id_lt : ∀ r ∈ rows, r.id < nextId
  ids : (rows.map ModelRunRow.id).Nodup
  keys : (rows.filterMap ModelRunRow.idempotencyKey).Nodup

/-- The arguments of `start_run`. -/
structure RunValues where
  modelName : String
  modelVersion : Option String := none
  strategyId : Option String := none
  strategyVersion : Option String := none
  params : Option PyValue := none
  idempotencyKey : Option String := none

def RunValues.toRow (values : RunValues) (id : Nat) : ModelRunRow :=
  { id
    modelName := values.modelName
    modelVersion := values.modelVersion
    strategyId := values.strategyId
    strategyVersion := values.strategyVersion
    status := "running"
    idempotencyKey := values.idempotencyKey
    params := values.params
    metrics := none }

namespace ModelRuns

def empty : ModelRuns where
  rows := []
  nextId := 1
  id_lt r hr := by cases hr
  ids := List.nodup_nil
  keys := List.nodup_nil

def findByKey (runs : ModelRuns) (key : String) : Option ModelRunRow :=
  runs.rows.find? fun r => r.idempotencyKey = some key

theorem findByKey_eq_some {runs : ModelRuns} {key : String} {r : ModelRunRow}
    (h : runs.findByKey key = some r) : r ∈ runs.rows ∧ r.idempotencyKey = some key :=
  ⟨List.mem_of_find?_eq_some h, by simpa using List.find?_some h⟩

theorem findByKey_eq_none {runs : ModelRuns} {key : String} (h : runs.findByKey key = none) :
    ∀ r ∈ runs.rows, r.idempotencyKey ≠ some key := by
  intro r hr
  simpa using List.find?_eq_none.mp h r hr

theorem eq_of_id_eq (runs : ModelRuns) {r s : ModelRunRow} (hr : r ∈ runs.rows)
    (hs : s ∈ runs.rows) (h : r.id = s.id) : r = s :=
  List.inj_on_of_nodup_map runs.ids hr hs h

theorem eq_of_key_eq (runs : ModelRuns) {r s : ModelRunRow} (hr : r ∈ runs.rows)
    (hs : s ∈ runs.rows) {key : String} (hrkey : r.idempotencyKey = some key)
    (hskey : s.idempotencyKey = some key) : r = s := by
  have hdistinct := runs.keys
  rw [List.Nodup, List.pairwise_filterMap] at hdistinct
  have hall : ∀ x ∈ runs.rows, ∀ y ∈ runs.rows,
      x.idempotencyKey = some key → y.idempotencyKey = some key → x = y := by
    refine List.Pairwise.forall_of_forall_of_flip (fun x _ _ _ => rfl) ?_ ?_
    · exact hdistinct.imp fun h hx hy => absurd rfl (h key hx key hy)
    · exact hdistinct.imp fun h hy hx => absurd rfl (h key hx key hy)
  exact hall r hr s hs hrkey hskey

theorem findByKey_of_mem (runs : ModelRuns) {r : ModelRunRow} (hr : r ∈ runs.rows) {key : String}
    (hkey : r.idempotencyKey = some key) : runs.findByKey key = some r := by
  cases hfind : runs.findByKey key with
  | none => exact absurd hkey (findByKey_eq_none hfind r hr)
  | some s =>
    obtain ⟨hs, hskey⟩ := findByKey_eq_some hfind
    rw [runs.eq_of_key_eq hr hs hkey hskey]

/-- `INSERT … RETURNING id`, where no row has the key. -/
def insert (runs : ModelRuns) (values : RunValues)
    (hkey : ∀ key, values.idempotencyKey = some key → ∀ r ∈ runs.rows,
      r.idempotencyKey ≠ some key) : ModelRuns where
  rows := runs.rows ++ [values.toRow runs.nextId]
  nextId := runs.nextId + 1
  id_lt r hr := by
    rcases List.mem_append.mp hr with hr | hr
    · exact Nat.lt_succ_of_lt (runs.id_lt r hr)
    · rw [List.mem_singleton.mp hr]
      exact Nat.lt_succ_self _
  ids := by
    rw [List.map_append, List.map_singleton, List.nodup_append]
    refine ⟨runs.ids, List.nodup_singleton _, fun a ha b hb => ?_⟩
    obtain ⟨r, hr, hra⟩ := List.mem_map.mp ha
    rw [List.mem_singleton.mp hb, ← hra]
    exact Nat.ne_of_lt (runs.id_lt r hr)
  keys := by
    rw [List.filterMap_append, List.nodup_append]
    refine ⟨runs.keys, ?_, fun a ha b hb => ?_⟩
    · cases h : (values.toRow runs.nextId).idempotencyKey <;> simp [h]
    · obtain ⟨r, hr, hra⟩ := List.mem_filterMap.mp ha
      obtain ⟨s, hs, hsb⟩ := List.mem_filterMap.mp hb
      rw [List.mem_singleton.mp hs] at hsb
      intro hab
      exact hkey b hsb r hr (hab ▸ hra)

/-- `start_run`: the table, the run's id, and whether the run was created. -/
def startRun (runs : ModelRuns) (values : RunValues) : ModelRuns × Nat × Bool :=
  match hkey : values.idempotencyKey with
  | none => (runs.insert values (by simp [hkey]), runs.nextId, true)
  | some key =>
      match hfind : runs.findByKey key with
      | some existing => (runs, existing.id, false)
      | none =>
          (runs.insert values (by
            intro k hk
            rw [hkey, Option.some.injEq] at hk
            exact hk ▸ findByKey_eq_none hfind), runs.nextId, true)

/-- `finish_run`. -/
def finishRun (runs : ModelRuns) (runId : Nat) (status : String) (metrics : Option PyValue) :
    ModelRuns where
  rows := runs.rows.map fun r => if r.id = runId then { r with status, metrics } else r
  nextId := runs.nextId
  id_lt r hr := by
    obtain ⟨s, hs, heq⟩ := List.mem_map.mp hr
    rw [← heq]
    by_cases h : s.id = runId
    · rw [if_pos h]
      exact runs.id_lt s hs
    · rw [if_neg h]
      exact runs.id_lt s hs
  ids := by
    rw [List.map_map]
    have hid : (ModelRunRow.id ∘ fun r => if r.id = runId then { r with status, metrics } else r) =
        ModelRunRow.id := by
      funext r
      show (if r.id = runId then _ else r : ModelRunRow).id = r.id
      by_cases h : r.id = runId
      · rw [if_pos h]
      · rw [if_neg h]
    rw [hid]
    exact runs.ids
  keys := by
    rw [List.filterMap_map]
    have hkey : (ModelRunRow.idempotencyKey ∘ fun r =>
        if r.id = runId then { r with status, metrics } else r) = ModelRunRow.idempotencyKey := by
      funext r
      show (if r.id = runId then _ else r : ModelRunRow).idempotencyKey = r.idempotencyKey
      by_cases h : r.id = runId
      · rw [if_pos h]
      · rw [if_neg h]
    rw [hkey]
    exact runs.keys

/-- A started run is one that has the key, left as it is, or a new one with the
values given. -/
theorem startRun_cases (runs : ModelRuns) (values : RunValues) :
    (∃ existing key, values.idempotencyKey = some key ∧
        runs.findByKey key = some existing ∧
        runs.startRun values = (runs, existing.id, false)) ∨
      ((∀ key, values.idempotencyKey = some key → runs.findByKey key = none) ∧
        ∃ started, runs.startRun values = (started, runs.nextId, true) ∧
          started.rows = runs.rows ++ [values.toRow runs.nextId] ∧
          started.nextId = runs.nextId + 1) := by
  unfold startRun
  split
  · rename_i hkey
    refine Or.inr ⟨?_, _, rfl, rfl, rfl⟩
    intro key hk
    rw [hkey] at hk
    cases hk
  · rename_i key hkey
    split
    · rename_i existing hfind
      exact Or.inl ⟨existing, key, hkey, hfind, rfl⟩
    · rename_i hfind
      refine Or.inr ⟨?_, _, rfl, rfl, rfl⟩
      intro k hk
      rw [hkey, Option.some.injEq] at hk
      exact hk ▸ hfind

theorem mem_startRun (runs : ModelRuns) (values : RunValues) {r : ModelRunRow}
    (hr : r ∈ runs.rows) : r ∈ (runs.startRun values).1.rows := by
  rcases runs.startRun_cases values with ⟨existing, key, _, _, heq⟩ | ⟨_, started, heq, hrows, _⟩
  · rw [heq]
    exact hr
  · rw [heq]
    show r ∈ started.rows
    rw [hrows]
    exact List.mem_append_left _ hr

/-- Finishing a run touches that run only, and of it the status and the metrics. -/
theorem mem_finishRun_iff (runs : ModelRuns) (runId : Nat) (status : String)
    (metrics : Option PyValue) (r : ModelRunRow) :
    r ∈ (runs.finishRun runId status metrics).rows ↔
      (r.id ≠ runId ∧ r ∈ runs.rows) ∨
        ∃ s ∈ runs.rows, s.id = runId ∧ r = { s with status, metrics } := by
  show r ∈ runs.rows.map _ ↔ _
  rw [List.mem_map]
  constructor
  · intro h
    obtain ⟨s, hs, heq⟩ := h
    by_cases hid : s.id = runId
    · rw [if_pos hid] at heq
      exact Or.inr ⟨s, hs, hid, heq.symm⟩
    · rw [if_neg hid] at heq
      exact Or.inl ⟨heq ▸ hid, heq ▸ hs⟩
  · intro h
    rcases h with ⟨hid, hr⟩ | ⟨s, hs, hid, heq⟩
    · exact ⟨r, hr, if_neg hid⟩
    · exact ⟨s, hs, by rw [if_pos hid, heq]⟩

/-- Finishing the run that was added last touches no other. -/
theorem mem_finishRun_added_iff (runs : ModelRuns) {started : ModelRuns} {added : ModelRunRow}
    (hrows : started.rows = runs.rows ++ [added]) (hid : added.id = runs.nextId) (status : String)
    (metrics : Option PyValue) (r : ModelRunRow) :
    r ∈ (started.finishRun runs.nextId status metrics).rows ↔
      r ∈ runs.rows ∨ r = { added with status, metrics } := by
  rw [mem_finishRun_iff, hrows]
  constructor
  · rintro (⟨hne, hr⟩ | ⟨s, hs, hsid, rfl⟩)
    · rcases List.mem_append.mp hr with hr | hr
      · exact Or.inl hr
      · rw [List.mem_singleton.mp hr] at hne
        exact absurd hid hne
    · rcases List.mem_append.mp hs with hs | hs
      · exact absurd hsid (Nat.ne_of_lt (runs.id_lt s hs))
      · rw [List.mem_singleton.mp hs]
        exact Or.inr rfl
  · rintro (hr | rfl)
    · exact Or.inl ⟨Nat.ne_of_lt (runs.id_lt r hr), List.mem_append_left _ hr⟩
    · exact Or.inr ⟨added, List.mem_append_right _ (List.mem_singleton_self _), hid, rfl⟩

end ModelRuns

structure SignalKey where
  modelRunId : Nat
  instrumentId : Nat
  eventTime : Instant
  deriving DecidableEq, Repr

structure SignalRow where
  modelRunId : Nat
  instrumentId : Nat
  eventTime : Instant
  availableAt : Instant
  ingestedAt : Instant
  signalValue : Option Decimal
  signalLabel : Option String
  payload : Option PyValue
  source : String

def SignalRow.naturalKey (row : SignalRow) : SignalKey :=
  { modelRunId := row.modelRunId, instrumentId := row.instrumentId, eventTime := row.eventTime }

abbrev Signals := Table SignalRow SignalRow.naturalKey

/-- The update columns `signal_value`, `signal_label`, `payload`, and `ingested_at`. -/
def updateSignal : ConflictClause SignalRow SignalRow.naturalKey where
  set old new :=
    { old with
      signalValue := new.signalValue, signalLabel := new.signalLabel, payload := new.payload
      ingestedAt := new.ingestedAt }
  key_set _ _ := rfl

/-- Runs and signals, every signal of a run that is there. -/
structure RunStore where
  runs : ModelRuns
  signals : Signals
  modelRunId_mem : ∀ s ∈ signals.rows, ∃ r ∈ runs.rows, r.id = s.modelRunId

namespace RunStore

def empty : RunStore where
  runs := ModelRuns.empty
  signals := Table.empty
  modelRunId_mem s hs := by cases hs

def startRun (store : RunStore) (values : RunValues) : RunStore × Nat × Bool :=
  ({ runs := (store.runs.startRun values).1
     signals := store.signals
     modelRunId_mem := by
      intro s hs
      obtain ⟨r, hr, hid⟩ := store.modelRunId_mem s hs
      exact ⟨r, store.runs.mem_startRun values hr, hid⟩ },
    (store.runs.startRun values).2)

/-- The statement is refused when it leaves a signal without its run. -/
def upsertSignals (store : RunStore) (rows : List SignalRow) : Except Exn (RunStore × Nat) := do
  let (signals, count) ← upsertEventRows updateSignal .update store.signals rows
  if h : ∀ s ∈ signals.rows, ∃ r ∈ store.runs.rows, r.id = s.modelRunId then
    return ({ runs := store.runs, signals, modelRunId_mem := h }, count)
  else
    throw .integrityError

def finishRun (store : RunStore) (runId : Nat) (status : String) (metrics : Option PyValue) :
    RunStore where
  runs := store.runs.finishRun runId status metrics
  signals := store.signals
  modelRunId_mem := by
    intro s hs
    obtain ⟨r, hr, hid⟩ := store.modelRunId_mem s hs
    by_cases h : r.id = runId
    · exact ⟨_, (store.runs.mem_finishRun_iff ..).mpr (Or.inr ⟨r, hr, h, rfl⟩), hid⟩
    · exact ⟨r, (store.runs.mem_finishRun_iff ..).mpr (Or.inl ⟨h, hr⟩), hid⟩

end RunStore

end Db
end QuantPlatform
