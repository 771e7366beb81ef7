/-
The operational log.

`log_event` writes an event down, once for each `dedup_key`: a retried job reports under
the key of its first attempt, and the outcome of that attempt stays.  The log is read newest
first, and as the fraction of events that succeeded.  A call that the table refuses for the
width of a column or a NUL is not among the calls here.
-/
import QuantPlatform.Python.Floats
import QuantPlatform.Relational.Identity
import QuantPlatform.Relational.Query
import Mathlib.Algebra.BigOperators.Group.List.Lemmas

namespace QuantPlatform
namespace Db

open Relational

structure SystemEventRow where
  id : Nat
  eventType : String
  source : String
  severity : String
  message : String
  details : Option PyValue
  occurredAt : Instant
  ingestedAt : Instant
  dedupKey : Option String

/-- The arguments of `log_event`, and `now()` of its transaction. -/
structure LogCall where
  eventType : String
  source : String
  severity : String
  message : String
  details : Option PyValue := none
  occurredAt : Option Instant := none
  dedupKey : Option String := none
  now : Instant

/-- The row as it is inserted: `occurred_at` and `ingested_at` default to `now()`. -/
def LogCall.toRow (call : LogCall) (id : Nat) : SystemEventRow where
  id := id
  eventType := call.eventType
  source := call.source
  severity := call.severity
  message := call.message
  details := call.details
  occurredAt := call.occurredAt.getD call.now
  ingestedAt := call.now
  dedupKey := call.dedupKey

/-- `UNIQUE (dedup_key)`. -/
abbrev SystemEvents : Type :=
  IdentityTable SystemEventRow SystemEventRow.id SystemEventRow.dedupKey

/-- The call reports of the job in the window of a success rate. -/
def LogCall.Reports (eventType source : String) (since : Instant) (call : LogCall) : Prop :=
  call.eventType = eventType ∧ call.source = source ∧ since ≤ call.occurredAt.getD call.now

instance (eventType source : String) (since : Instant) (call : LogCall) :
    Decidable (call.Reports eventType source since) :=
  inferInstanceAs (Decidable (_ ∧ _ ∧ _))

namespace SystemEvents

def draft (call : LogCall) : Draft SystemEventRow SystemEventRow.id SystemEventRow.dedupKey where
  key? := call.dedupKey
  toRow := call.toRow
  id_toRow _ := rfl
  key_toRow _ := rfl

/-- `log_event`: the event's identity, and whether it is new. -/
def logEvent (events : SystemEvents) (call : LogCall) : SystemEvents × Nat × Bool :=
  events.create (draft call)

/-- The log after calls on an empty one. -/
def after (calls : List LogCall) : SystemEvents :=
  IdentityTable.empty.after (calls.map fun call => .create (draft call))

theorem after_concat (calls : List LogCall) (call : LogCall) :
    after (calls ++ [call]) = (logEvent (after calls) call).1 := by
  rw [after, List.map_append, List.map_singleton, IdentityTable.after_concat]
  rfl

abbrev NewestFirst : Type :=
  OrderBy SystemEventRow fun a b => b.occurredAt ≤ a.occurredAt

/-- `list_recent`. -/
def listRecent (o : NewestFirst) (events : SystemEvents) (eventType : Option String)
    (limit : Nat) : List SystemEventRow :=
  (o.arrange (events.rows.filter fun r => eventType = none ∨ eventType = some r.eventType)).take
    limit

def successSeverity : String := "INFO"

/-- `SELECT severity, COUNT(*) … GROUP BY severity`. -/
def severityCounts (rows : List SystemEventRow) : List (String × Nat) :=
  (rows.map SystemEventRow.severity).dedup.map fun severity =>
    (severity, (rows.map SystemEventRow.severity).count severity)

/-- `compute_success_rate`. -/
def computeSuccessRate (events : SystemEvents) (eventType source : String) (since : Instant) :
    Option PyFloat :=
  let counts := severityCounts (events.rows.filter fun r =>
    r.eventType = eventType ∧ r.source = source ∧ since ≤ r.occurredAt)
  let total := (counts.map Prod.snd).sum
  if total = 0 then none
  else some (PyFloat.ratio ((counts.lookup successSeverity).getD 0) total)

/-- The calls that are written down: those whose `dedup_key` no earlier call had. -/
def firstOutcomes (calls : List LogCall) : List LogCall :=
  IdentityTable.firstUnder LogCall.dedupKey calls

theorem rows_after (calls : List LogCall) :
    (after calls).rows = (firstOutcomes calls).mapIdx fun i call => call.toRow (i + 1) :=
  (IdentityTable.rows_after_creates (fun call => (rfl : (draft call).key? = call.dedupKey))
    calls).1

theorem lookup_severityCounts (rows : List SystemEventRow) (severity : String) :
    ((severityCounts rows).lookup severity).getD 0 =
      (rows.map SystemEventRow.severity).count severity := by
  unfold severityCounts
  by_cases h : severity ∈ rows.map SystemEventRow.severity
  · rw [List.lookup_graph _ (List.mem_dedup.mpr h)]
    rfl
  · have hnone : (((rows.map SystemEventRow.severity).dedup.map fun severity =>
        (severity, (rows.map SystemEventRow.severity).count severity)).lookup severity) = none := by
      rw [List.lookup_eq_none_iff]
      intro entry hentry
      obtain ⟨other, hother, rfl⟩ := List.mem_map.mp hentry
      have hne : severity ≠ other := fun heq => h (heq ▸ List.mem_dedup.mp hother)
      simpa using hne
    rw [hnone, List.count_eq_zero_of_not_mem h]
    rfl

theorem sum_severityCounts (rows : List SystemEventRow) :
    ((severityCounts rows).map Prod.snd).sum = rows.length := by
  rw [severityCounts, List.map_map]
  have hcounts : Prod.snd ∘ (fun severity =>
      (severity, (rows.map SystemEventRow.severity).count severity)) =
      fun severity => (rows.map SystemEventRow.severity).count severity := rfl
  rw [hcounts, List.sum_map_count_dedup_eq_length, List.length_map]

/-- The severities that a success rate counts are those of the first outcomes in its window. -/
theorem severities_after (calls : List LogCall) (eventType source : String) (since : Instant) :
    ((after calls).rows.filter fun r =>
        r.eventType = eventType ∧ r.source = source ∧ since ≤ r.occurredAt).map
          SystemEventRow.severity =
      ((firstOutcomes calls).filter (·.Reports eventType source since)).map LogCall.severity := by
  rw [rows_after, ← List.filterMap_eq_map', List.filterMap_filter, ← List.filterMap_eq_map',
    List.filterMap_filter]
  refine IdentityTable.filterMap_mapIdx ?_ _
  intro i call
  rfl

/-- The log holds the first outcome under each `dedup_key`, in the order of the calls and
numbered from one; the success rate is the fraction of those in its window that succeeded,
and none when there is none; and the recent events are newest first, with no event left out
that is newer than one listed. -/
theorem first_outcomes_read (calls : List LogCall) :
    (after calls).rows =
        (firstOutcomes calls).mapIdx (fun i call => call.toRow (i + 1)) ∧
      (∀ eventType source since,
        (after calls).computeSuccessRate eventType source since =
          if (firstOutcomes calls).filter (·.Reports eventType source since) = [] then none
          else some (PyFloat.ratio
            (((firstOutcomes calls).filter (·.Reports eventType source since)).countP
              (·.severity = successSeverity))
            ((firstOutcomes calls).filter (·.Reports eventType source since)).length)) ∧
      ∀ (o : NewestFirst) eventType limit, ∃ rest,
        ((after calls).listRecent o eventType limit ++ rest).Perm
            ((after calls).rows.filter fun r => eventType = none ∨ eventType = some r.eventType) ∧
          ((after calls).listRecent o eventType limit).Pairwise
            (fun a b => b.occurredAt ≤ a.occurredAt) ∧
          (∀ r ∈ (after calls).listRecent o eventType limit, ∀ s ∈ rest,
            s.occurredAt ≤ r.occurredAt) ∧
          (rest ≠ [] → ((after calls).listRecent o eventType limit).length = limit) := by
  refine ⟨rows_after calls, ?_, fun o eventType limit => o.take_arrange _ limit⟩
  intro eventType source since
  have hsevere := severities_after calls eventType source since
  have hlength := congrArg List.length hsevere
  rw [List.length_map, List.length_map] at hlength
  rw [computeSuccessRate]
  simp only [sum_severityCounts, lookup_severityCounts, hsevere, hlength,
    List.length_eq_zero_iff]
  split
  · rfl
  · rw [List.count, List.countP_map]
    rfl

end SystemEvents

end Db
end QuantPlatform
