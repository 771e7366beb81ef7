/-
The two idempotent write strategies for observed-event tables.

`upsertEventRows` is one `INSERT … ON CONFLICT (<natural key>) DO UPDATE` for a
whole batch.  The update columns and `ingested_at` come from the new row, and
everything else, `available_at` among it, stays as first written.  PostgreSQL
refuses the statement when two of its rows share the natural key.

`appendRevisionRows` inserts one row at a time under the logical key together
with `available_at`, so a correction becomes a new revision.  A row submitted
again under the same `available_at` changes nothing but `ingested_at`.

A revisioned row is modelled as its logical key, its three bookkeeping columns
and the remaining columns as one value.  The surrogate `id` of these tables is
left out: nothing reads it.
-/
import QuantPlatform.Python.Data
import QuantPlatform.Relational.Table
import QuantPlatform.Temporal.Fact

namespace QuantPlatform
namespace Db

open Relational Temporal

/-- The `on_conflict` argument of `upsert_event_rows`. -/
inductive ConflictMode
  | update
  | nothing

/-- `ON CONFLICT … DO NOTHING` keeps the stored row. -/
def keepStored {ρ κ : Type} (key : ρ → κ) : ConflictClause ρ key where
  set old _ := old
  key_set _ _ := rfl

/-- Returns the table and the number of rows affected.  The number stands for the
`rowcount` of the driver, which may also report `-1` for it.  `update` is the
`SET` clause: the update columns and `ingested_at`. -/
def upsertEventRows {ρ κ : Type} {key : ρ → κ} [DecidableEq κ] (update : ConflictClause ρ key)
    (mode : ConflictMode) (table : Table ρ key) (rows : List ρ) :
    Except Exn (Table ρ key × Nat) :=
  if rows.isEmpty then .ok (table, 0)
  else
    match mode with
    | .nothing =>
        let written := table.insertAll (keepStored key) rows
        .ok (written, written.rows.length - table.rows.length)
    | .update =>
        if (rows.map key).Nodup then .ok (table.insertAll update rows, rows.length)
        else .error .cardinalityViolation

theorem upsertEventRows_ok_iff {ρ κ : Type} {key : ρ → κ} [DecidableEq κ]
    (update : ConflictClause ρ key) (table : Table ρ key) (rows : List ρ)
    (result : Table ρ key × Nat) :
    upsertEventRows update .update table rows = .ok result ↔
      (rows.map key).Nodup ∧ result = (table.insertAll update rows, rows.length) := by
  unfold upsertEventRows
  cases rows with
  | nil =>
      rw [if_pos List.isEmpty_nil]
      simp only [Except.ok.injEq, List.map_nil, List.nodup_nil, true_and]
      exact eq_comm
  | cons first rest =>
      rw [if_neg (by simp)]
      by_cases h : ((first :: rest).map key).Nodup
      · simp only [h, if_true, Except.ok.injEq, true_and]
        exact eq_comm
      · simp only [h, if_false, false_and, reduceCtorEq]

/-- A batch of changed rows does to the changed table what the batch does to the table, or is
refused like it. -/
theorem upsertEventRows_map {ρ σ κ : Type} {key : ρ → κ} {key' : σ → κ} [DecidableEq κ]
    {f : ρ → σ} (hf : ∀ r, key' (f r) = key r) {update : ConflictClause ρ key}
    {update' : ConflictClause σ key'}
    (hset : ∀ old new, key old = key new → f (update.set old new) = update'.set (f old) (f new))
    (table : Table ρ key) (rows : List ρ) :
    upsertEventRows update' .update (table.map hf) (rows.map f) =
      (upsertEventRows update .update table rows).map fun written =>
        (written.1.map hf, written.2) := by
  have hkeys : (rows.map f).map key' = rows.map key := by
    rw [List.map_map]
    exact List.map_congr_left fun r _ => hf r
  unfold upsertEventRows
  rw [List.isEmpty_map, hkeys, List.length_map]
  by_cases hempty : rows.isEmpty = true
  · rw [if_pos hempty, if_pos hempty]
    rfl
  · rw [if_neg hempty, if_neg hempty]
    by_cases hnodup : (rows.map key).Nodup
    · simp only [if_pos hnodup, ← Table.map_insertAll hf hset]
      rfl
    · simp only [if_neg hnodup]
      rfl

/-! ## Revisioned tables -/

/-- A stored row of a revisioned table. -/
structure RevisionRow (Key Value : Type) where
  key : Key
  availableAt : Instant
  ingestedAt : Instant
  revision : Nat
  value : Value
  deriving DecidableEq, Repr

/-- A row handed to `append_revision_rows`: everything but the revision. -/
structure RevisionInput (Key Value : Type) where
  key : Key
  availableAt : Instant
  ingestedAt : Instant
  value : Value
  deriving DecidableEq, Repr

variable {Key Value : Type}

/-- The columns of the `UNIQUE` constraint: the logical key and `available_at`. -/
def RevisionRow.naturalKey (r : RevisionRow Key Value) : Key × Instant := (r.key, r.availableAt)

def RevisionInput.naturalKey (r : RevisionInput Key Value) : Key × Instant :=
  (r.key, r.availableAt)

/-- What a submission says: its value is known from `available_at` on. -/
def RevisionInput.fact (r : RevisionInput Key Value) : Fact Key Instant Value :=
  { subject := r.key, time := r.availableAt, value := r.value }

abbrev RevisionTable (Key Value : Type) :=
  Table (RevisionRow Key Value) RevisionRow.naturalKey

/-- `SET ingested_at = EXCLUDED.ingested_at`. -/
def touchIngestedAt (Key Value : Type) :
    ConflictClause (RevisionRow Key Value) RevisionRow.naturalKey where
  set old new := { old with ingestedAt := new.ingestedAt }
  key_set _ _ := rfl

variable [DecidableEq Key]

/-- `SELECT coalesce(max(revision), 0) + 1 WHERE <logical key>`. -/
def nextRevision (table : RevisionTable Key Value) (key : Key) : Nat :=
  ((table.rows.filter fun r => r.key = key).map RevisionRow.revision).foldl Nat.max 0 + 1

/-- The row an input would insert, its revision computed from the table as it stands. -/
def RevisionInput.toRow (table : RevisionTable Key Value) (input : RevisionInput Key Value) :
    RevisionRow Key Value :=
  { key := input.key
    availableAt := input.availableAt
    ingestedAt := input.ingestedAt
    revision := nextRevision table input.key
    value := input.value }

def appendRevisionRow (table : RevisionTable Key Value) (input : RevisionInput Key Value) :
    RevisionTable Key Value :=
  table.insert (touchIngestedAt Key Value) (input.toRow table)

/-- Returns the table and the number of rows affected, one for each input.  The
number stands for the sum of the driver's `rowcount`s. -/
def appendRevisionRows (table : RevisionTable Key Value)
    (rows : List (RevisionInput Key Value)) : RevisionTable Key Value × Nat :=
  (rows.foldl appendRevisionRow table, rows.length)

/-- The table after one batch after another. -/
def appendBatches (table : RevisionTable Key Value)
    (batches : List (List (RevisionInput Key Value))) : RevisionTable Key Value :=
  batches.foldl (fun t rows => (appendRevisionRows t rows).1) table

/-- Batching does not matter: a sequence of batches is their rows, one by one. -/
theorem appendBatches_eq (table : RevisionTable Key Value)
    (batches : List (List (RevisionInput Key Value))) :
    appendBatches table batches = batches.flatten.foldl appendRevisionRow table := by
  rw [List.foldl_flatten]
  rfl

theorem find_appendRevisionRow (table : RevisionTable Key Value)
    (input : RevisionInput Key Value) (k : Key × Instant) :
    (appendRevisionRow table input).find k =
      if k = input.naturalKey then
        some (Table.stored (touchIngestedAt Key Value) (table.find k) (input.toRow table))
      else table.find k :=
  Table.find_insert _ _ _ _

/-- The value stored under a natural key is the one first submitted for it. -/
theorem value_appendRevisionRow (table : RevisionTable Key Value)
    (input : RevisionInput Key Value) (k : Key × Instant) :
    ((appendRevisionRow table input).find k).map RevisionRow.value =
      ((table.find k).map RevisionRow.value).or
        (if k = input.naturalKey then some input.value else none) := by
  rw [find_appendRevisionRow]
  by_cases hk : k = input.naturalKey
  · rw [if_pos hk, if_pos hk]
    cases table.find k <;> rfl
  · rw [if_neg hk, if_neg hk, Option.or_none]

/-- Rows available by an instant are out of reach of an input available after it. -/
theorem mem_appendRevisionRow_of_le {table : RevisionTable Key Value}
    {input : RevisionInput Key Value} {cutoff : Instant} (hlater : cutoff < input.availableAt)
    {r : RevisionRow Key Value} (hr : r.availableAt ≤ cutoff) :
    r ∈ (appendRevisionRow table input).rows ↔ r ∈ table.rows := by
  have hne : r.naturalKey ≠ input.naturalKey := by
    intro he
    have hat : r.availableAt = input.availableAt := congrArg Prod.snd he
    exact absurd (hat ▸ hr) (not_le.mpr hlater)
  rw [Table.mem_rows_iff, find_appendRevisionRow, if_neg hne, ← Table.mem_rows_iff]

/-- An input whose natural key is stored leaves the number of rows as it is, and
any other adds one. -/
theorem length_appendRevisionRow (table : RevisionTable Key Value)
    (input : RevisionInput Key Value) :
    (appendRevisionRow table input).rows.length =
      table.rows.length + if (table.find input.naturalKey).isSome then 0 else 1 :=
  Table.length_insert _ _ _

theorem mem_appendRevisionRows_of_le {rows : List (RevisionInput Key Value)}
    {cutoff : Instant} (hlater : ∀ input ∈ rows, cutoff < input.availableAt)
    (table : RevisionTable Key Value) {r : RevisionRow Key Value} (hr : r.availableAt ≤ cutoff) :
    r ∈ (appendRevisionRows table rows).1.rows ↔ r ∈ table.rows := by
  induction rows generalizing table with
  | nil => rfl
  | cons input rest ih =>
    have hrest := ih (fun i hi => hlater i (List.mem_cons_of_mem input hi))
      (appendRevisionRow table input)
    rw [mem_appendRevisionRow_of_le (hlater input List.mem_cons_self) hr] at hrest
    exact hrest

/-- No other values get into the table than were in it or in the inputs. -/
theorem forall_value_appendRevisionRows {p : Value → Prop}
    {rows : List (RevisionInput Key Value)} (hrows : ∀ input ∈ rows, p input.value)
    {table : RevisionTable Key Value} (htable : ∀ r ∈ table.rows, p r.value) :
    ∀ r ∈ (appendRevisionRows table rows).1.rows, p r.value := by
  induction rows generalizing table with
  | nil => exact htable
  | cons input rest ih =>
    obtain ⟨hinput, hrest⟩ := List.forall_mem_cons.mp hrows
    refine @ih hrest (appendRevisionRow table input) fun r hr => ?_
    have hvalue := value_appendRevisionRow table input r.naturalKey
    rw [(Table.mem_rows_iff _ _).mp hr, Option.map_some] at hvalue
    cases hfind : table.find r.naturalKey with
    | some old =>
      rw [hfind] at hvalue
      rw [Option.some.inj hvalue]
      exact htable old ((Table.find_eq_some_iff _ _ _).mp hfind).1
    | none =>
      rw [hfind, Option.map_none, Option.none_or] at hvalue
      split_ifs at hvalue
      rw [Option.some.inj hvalue]
      exact hinput

/-- What each row preserves of a table and of what has been submitted, a run preserves. -/
theorem foldl_appendRevisionRow
    {p : RevisionTable Key Value → List (Fact Key Instant Value) → Prop}
    (hstep : ∀ {table facts} (input : RevisionInput Key Value), p table facts →
      p (appendRevisionRow table input) (facts ++ [input.fact]))
    {table : RevisionTable Key Value} {facts : List (Fact Key Instant Value)} (h : p table facts)
    (rows : List (RevisionInput Key Value)) :
    p (rows.foldl appendRevisionRow table) (facts ++ rows.map RevisionInput.fact) := by
  induction rows generalizing table facts with
  | nil => rwa [List.map_nil, List.append_nil]
  | cons input rest ih =>
    have hrest := ih (hstep input h)
    rw [List.append_assoc] at hrest
    exact hrest

/-- The table holds, under each natural key, the value that arrived first for it. -/
def Records (table : RevisionTable Key Value) (facts : List (Fact Key Instant Value)) : Prop :=
  ∀ k t, (table.find (k, t)).map RevisionRow.value = first facts k t

theorem records_empty : Records (Table.empty : RevisionTable Key Value) [] :=
  fun _ _ => rfl

theorem Records.appendRevisionRow {table : RevisionTable Key Value}
    {facts : List (Fact Key Instant Value)} (h : Records table facts)
    (input : RevisionInput Key Value) :
    Records (appendRevisionRow table input) (facts ++ [input.fact]) := by
  intro k t
  rw [value_appendRevisionRow, h k t, first_append, first_singleton]
  congr 1
  simp only [RevisionInput.naturalKey, RevisionInput.fact, Prod.mk.injEq]
  exact if_congr ⟨fun he => ⟨he.1.symm, he.2.symm⟩, fun he => ⟨he.1.symm, he.2.symm⟩⟩ rfl rfl

theorem Records.foldl {table : RevisionTable Key Value}
    {facts : List (Fact Key Instant Value)} (h : Records table facts)
    (rows : List (RevisionInput Key Value)) :
    Records (rows.foldl Db.appendRevisionRow table) (facts ++ rows.map RevisionInput.fact) :=
  foldl_appendRevisionRow (fun input hrecords => hrecords.appendRevisionRow input) h rows

/-- A table built by any batches records exactly what was submitted. -/
theorem records_appendBatches (batches : List (List (RevisionInput Key Value))) :
    Records (appendBatches Table.empty batches) (batches.flatten.map RevisionInput.fact) := by
  rw [appendBatches_eq]
  exact records_empty.foldl batches.flatten

/-- A natural key is stored after a run when it was stored before or is among
the inputs. -/
theorem isSome_find_appendRevisionRows (rows : List (RevisionInput Key Value))
    (table : RevisionTable Key Value) (k : Key × Instant) :
    ((appendRevisionRows table rows).1.find k).isSome ↔
      (table.find k).isSome ∨ k ∈ rows.map RevisionInput.naturalKey := by
  induction rows generalizing table with
  | nil => simp [appendRevisionRows]
  | cons input rest ih =>
    have hrest := ih (appendRevisionRow table input)
    rw [find_appendRevisionRow] at hrest
    rw [List.map_cons, List.mem_cons]
    by_cases hk : k = input.naturalKey
    · rw [if_pos hk] at hrest
      simpa [hk, appendRevisionRows] using hrest
    · rw [if_neg hk] at hrest
      simpa [hk, appendRevisionRows] using hrest

theorem length_le_appendRevisionRows (rows : List (RevisionInput Key Value))
    (table : RevisionTable Key Value) :
    table.rows.length ≤ (appendRevisionRows table rows).1.rows.length := by
  induction rows generalizing table with
  | nil => exact Nat.le_refl _
  | cons input rest ih =>
    have hstep := length_appendRevisionRow table input
    have hrest := ih (appendRevisionRow table input)
    exact Nat.le_trans (by omega) hrest

/-- A batch leaves the number of rows as it is exactly when every one of its
natural keys is already stored. -/
theorem length_appendRevisionRows_eq_iff (rows : List (RevisionInput Key Value))
    (table : RevisionTable Key Value) :
    (appendRevisionRows table rows).1.rows.length = table.rows.length ↔
      ∀ input ∈ rows, (table.find input.naturalKey).isSome := by
  induction rows generalizing table with
  | nil => simp [appendRevisionRows]
  | cons input rest ih =>
    have hstep := length_appendRevisionRow table input
    have hrest := ih (appendRevisionRow table input)
    have hgrow := length_le_appendRevisionRows rest (appendRevisionRow table input)
    have hcons : (appendRevisionRows table (input :: rest)).1 =
        (appendRevisionRows (appendRevisionRow table input) rest).1 := rfl
    have hkeys := fun k => isSome_find_appendRevisionRows [input] table k
    rw [hcons, List.forall_mem_cons]
    by_cases hin : (table.find input.naturalKey).isSome = true
    · rw [if_pos hin] at hstep
      rw [Nat.add_zero] at hstep
      rw [← hstep, hrest]
      constructor
      · intro h
        refine ⟨hin, fun i hi => ?_⟩
        rcases (hkeys i.naturalKey).mp (h i hi) with hi' | hi'
        · exact hi'
        · rw [List.map_singleton, List.mem_singleton] at hi'
          exact hi' ▸ hin
      · exact fun h i hi => (hkeys i.naturalKey).mpr (Or.inl (h.2 i hi))
    · rw [if_neg hin] at hstep
      constructor
      · intro h
        omega
      · exact fun h => absurd h.1 hin

end Db
end QuantPlatform
