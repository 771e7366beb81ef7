/-
Batches of plain events, and trade ticks.

Ticks have no identity of their own, so a tick is what it says: delivered again it is
dropped, in one batch or in two.  Other events are observed again and rewritten in place,
under the `available_at` of the first observation; a batch that observes one of them twice
is refused.  Batches that a foreign key, the width of a column or a NUL refuses are left out.
-/
import QuantPlatform.Db.Upsert
import QuantPlatform.Relational.Upserts

namespace QuantPlatform
namespace Db

open Relational

section Batches

variable {ρ κ : Type} {key : ρ → κ} [DecidableEq κ]

/-- A batch in a transaction of its own: refused, it leaves the table as it was. -/
def commitBatch (update : ConflictClause ρ key) (mode : ConflictMode) (table : Table ρ key)
    (rows : List ρ) : Table ρ key :=
  match upsertEventRows update mode table rows with
  | .ok written => written.1
  | .error _ => table

/-- The table after batches on an empty one. -/
def afterBatches (update : ConflictClause ρ key) (mode : ConflictMode)
    (batches : List (List ρ)) : Table ρ key :=
  batches.foldl (commitBatch update mode) Table.empty

section Concat

variable {update : ConflictClause ρ key} {mode : ConflictMode} {batches : List (List ρ)}
  {rows : List ρ}

theorem afterBatches_concat_of_ok {written : Table ρ key × Nat}
    (h : upsertEventRows update mode (afterBatches update mode batches) rows = .ok written) :
    afterBatches update mode (batches ++ [rows]) = written.1 := by
  rw [afterBatches, List.foldl_concat, ← afterBatches, commitBatch, h]

theorem afterBatches_concat_of_error {e : Exn}
    (h : upsertEventRows update mode (afterBatches update mode batches) rows = .error e) :
    afterBatches update mode (batches ++ [rows]) = afterBatches update mode batches := by
  rw [afterBatches, List.foldl_concat, ← afterBatches, commitBatch, h]

end Concat

theorem commitBatch_nothing (update : ConflictClause ρ key) (table : Table ρ key)
    (rows : List ρ) :
    commitBatch update .nothing table rows = table.insertAll (keepStored key) rows := by
  unfold commitBatch upsertEventRows
  cases rows with
  | nil => rfl
  | cons first rest => rfl

theorem afterBatches_nothing (update : ConflictClause ρ key) (batches : List (List ρ)) :
    (afterBatches update .nothing batches).rows = firstPerKey key batches.flatten := by
  have hall : afterBatches update .nothing batches =
      (Table.empty : Table ρ key).insertAll (keepStored key) batches.flatten := by
    unfold afterBatches Table.insertAll
    rw [List.foldl_flatten]
    refine List.foldl_ext _ _ _ fun table rows _ => ?_
    exact commitBatch_nothing update table rows
  rw [hall, Table.rows_insertAll_of_keeps fun _ _ => rfl]

/-- The rows of the batches that are not refused. -/
def accepted (key : ρ → κ) (batches : List (List ρ)) : List ρ :=
  (batches.filter fun rows => (rows.map key).Nodup).flatten

theorem afterBatches_update (update : ConflictClause ρ key) (batches : List (List ρ)) :
    afterBatches update .update batches =
      (Table.empty : Table ρ key).insertAll update (accepted key batches) := by
  unfold afterBatches accepted Table.insertAll
  rw [List.foldl_flatten, List.foldl_filter]
  refine List.foldl_ext _ _ _ fun table rows _ => ?_
  by_cases h : (rows.map key).Nodup
  · have hok := (upsertEventRows_ok_iff update table rows _).mpr ⟨h, rfl⟩
    simp only [commitBatch, hok, h, decide_true, if_true]
    rfl
  · simp only [h, decide_false, Bool.false_eq_true, if_false]
    unfold commitBatch
    cases hrun : upsertEventRows update .update table rows with
    | error e => rfl
    | ok written => exact absurd ((upsertEventRows_ok_iff ..).mp hrun).1 h

theorem find_afterBatches_update {update : ConflictClause ρ key} (hover : Table.Overwrites update)
    (batches : List (List ρ)) (k : κ) :
    (afterBatches update .update batches).find k =
      Table.observed update (accepted key batches) k := by
  rw [afterBatches_update, Table.find_insertAll_empty hover]

end Batches

structure TradeTickRow where
  instrumentId : Nat
  eventTime : Instant
  availableAt : Instant
  ingestedAt : Instant
  price : Decimal
  volume : Decimal
  currency : Option String
  source : String
  deriving DecidableEq, Repr

/-- The columns of the `UNIQUE` constraint.  Numbers that are equal are one key, whatever
their digits, and the database holds every NaN for the same. -/
structure TickKey where
  instrumentId : Nat
  eventTime : Instant
  source : String
  price : Option (Int × ℚ)
  volume : Option (Int × ℚ)
  deriving DecidableEq

def TradeTickRow.naturalKey (r : TradeTickRow) : TickKey where
  instrumentId := r.instrumentId
  eventTime := r.eventTime
  source := r.source
  price := r.price.rank
  volume := r.volume.rank

namespace TradeTicks

/-- `upsert_ticks` with no update columns. -/
def upsertTicks (ticks : Table TradeTickRow TradeTickRow.naturalKey)
    (rows : List TradeTickRow) :
    Except Exn (Table TradeTickRow TradeTickRow.naturalKey × Nat) :=
  upsertEventRows (keepStored TradeTickRow.naturalKey) .nothing ticks rows

def after (batches : List (List TradeTickRow)) : Table TradeTickRow TradeTickRow.naturalKey :=
  afterBatches (keepStored TradeTickRow.naturalKey) .nothing batches

theorem after_concat_of_ok {batches : List (List TradeTickRow)} {rows : List TradeTickRow}
    {written : Table TradeTickRow TradeTickRow.naturalKey × Nat}
    (h : upsertTicks (after batches) rows = .ok written) :
    after (batches ++ [rows]) = written.1 :=
  afterBatches_concat_of_ok h

abbrev TickOrder : Type := OrderBy TradeTickRow fun a b => a.eventTime ≤ b.eventTime

/-- `get_ticks_as_of`. -/
def getTicksAsOf (o : TickOrder) (ticks : Table TradeTickRow TradeTickRow.naturalKey)
    (instrumentId : Nat) (start stop asOf : Instant) : List TradeTickRow :=
  o.arrange <| ticks.rows.filter fun r =>
    r.instrumentId = instrumentId ∧ start ≤ r.eventTime ∧ r.eventTime ≤ stop ∧
      r.availableAt ≤ asOf

/-- The tick as it was delivered first, in a run of batches. -/
def IsFirstDelivery (batches : List (List TradeTickRow)) (r : TradeTickRow) : Prop :=
  batches.flatten.find? (fun s => s.naturalKey = r.naturalKey) = some r

theorem mem_after_iff (batches : List (List TradeTickRow)) (r : TradeTickRow) :
    r ∈ (after batches).rows ↔ IsFirstDelivery batches r := by
  rw [after, afterBatches_nothing]
  exact mem_firstPerKey_iff batches.flatten r

theorem rows_after_append (batches later : List (List TradeTickRow)) :
    (after (batches ++ later)).rows = (after batches).rows ++
      (firstPerKey TradeTickRow.naturalKey later.flatten).filter fun s =>
        s.naturalKey ∉ batches.flatten.map TradeTickRow.naturalKey := by
  rw [after, after, afterBatches_nothing, afterBatches_nothing, List.flatten_append,
    firstPerKey_append]

/-- What becomes available after `as_of` adds nothing to a read. -/
theorem getTicksAsOf_append (o : TickOrder) {asOf : Instant}
    (batches : List (List TradeTickRow)) {later : List (List TradeTickRow)}
    (hlater : ∀ r ∈ later.flatten, asOf < r.availableAt) (instrumentId : Nat)
    (start stop : Instant) :
    getTicksAsOf o (after (batches ++ later)) instrumentId start stop asOf =
      getTicksAsOf o (after batches) instrumentId start stop asOf := by
  unfold getTicksAsOf
  rw [rows_after_append, List.filter_append]
  refine congrArg o.arrange ((congrArg (_ ++ ·) (List.filter_eq_nil_iff.mpr ?_)).trans
    (List.append_nil _))
  intro s hs
  have hmem := mem_of_mem_firstPerKey _ (List.mem_of_mem_filter hs)
  have hunseen : ¬ s.availableAt ≤ asOf := not_le.mpr (hlater s hmem)
  simp [hunseen]

/-- A batch of ticks that were delivered before is dropped. -/
theorem after_redelivery {batches : List (List TradeTickRow)} {rows : List TradeTickRow}
    (hrows : ∀ r ∈ rows, r.naturalKey ∈ batches.flatten.map TradeTickRow.naturalKey) :
    upsertTicks (after batches) rows = .ok (after batches, 0) := by
  have hsame : (after batches).insertAll (keepStored TradeTickRow.naturalKey) rows =
      after batches := by
    refine Table.eq_of_rows_eq ?_
    have happend := rows_after_append batches [rows]
    have hnone : ((firstPerKey TradeTickRow.naturalKey [rows].flatten).filter fun s =>
        s.naturalKey ∉ batches.flatten.map TradeTickRow.naturalKey) = [] := by
      refine List.filter_eq_nil_iff.mpr fun s hs => ?_
      have hmem := mem_of_mem_firstPerKey _ hs
      rw [List.flatten_cons, List.flatten_nil, List.append_nil] at hmem
      simpa using hrows s hmem
    rw [hnone, List.append_nil] at happend
    have hlast : after (batches ++ [rows]) =
        commitBatch (keepStored TradeTickRow.naturalKey) .nothing (after batches) rows :=
      List.foldl_append
    rw [← happend, hlast, commitBatch_nothing]
  unfold upsertTicks upsertEventRows
  cases rows with
  | nil => rfl
  | cons first rest =>
    simp only [List.isEmpty_cons, Bool.false_eq_true, if_false, hsame, Nat.sub_self]

/-- Delivered any number of times, a tick is there once, as it came first: a read at `as_of`
shows the ticks of its window whose first delivery was available by then, in the order of
their times; later deliveries change no earlier read, and a redelivered batch nothing. -/
theorem ticks_as_first_delivered (batches : List (List TradeTickRow)) :
    (∀ (o : TickOrder) instrumentId start stop asOf,
      ((getTicksAsOf o (after batches) instrumentId start stop asOf).map
          TradeTickRow.naturalKey).Nodup ∧
        (getTicksAsOf o (after batches) instrumentId start stop asOf).Pairwise
          (fun a b => a.eventTime ≤ b.eventTime) ∧
        (∀ r, r ∈ getTicksAsOf o (after batches) instrumentId start stop asOf ↔
          IsFirstDelivery batches r ∧ r.instrumentId = instrumentId ∧ start ≤ r.eventTime ∧
            r.eventTime ≤ stop ∧ r.availableAt ≤ asOf) ∧
        ∀ later : List (List TradeTickRow), (∀ r ∈ later.flatten, asOf < r.availableAt) →
          getTicksAsOf o (after (batches ++ later)) instrumentId start stop asOf =
            getTicksAsOf o (after batches) instrumentId start stop asOf) ∧
      ∀ rows : List TradeTickRow,
        (∀ r ∈ rows, r.naturalKey ∈ batches.flatten.map TradeTickRow.naturalKey) →
        upsertTicks (after batches) rows = .ok (after batches, 0) := by
  refine ⟨fun o instrumentId start stop asOf => ⟨?_, o.sorted _, fun r => ?_, ?_⟩,
    fun rows hrows => after_redelivery hrows⟩
  · have hperm := (o.perm ((after batches).rows.filter fun r =>
      r.instrumentId = instrumentId ∧ start ≤ r.eventTime ∧ r.eventTime ≤ stop ∧
        r.availableAt ≤ asOf)).map TradeTickRow.naturalKey
    exact hperm.nodup_iff.mpr
      ((after batches).unique.sublist (List.filter_sublist.map TradeTickRow.naturalKey))
  · rw [getTicksAsOf, o.mem_arrange_iff, List.mem_filter, mem_after_iff]
    simp
  · exact fun later hlater => getTicksAsOf_append o batches hlater instrumentId start stop

end TradeTicks

end Db
end QuantPlatform
