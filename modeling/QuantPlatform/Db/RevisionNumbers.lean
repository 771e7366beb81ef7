/-
The numbers of the revisions of an event.

The subquery reads the largest revision of the event whether or not the insert turns into a
conflict update, and no constraint of the table is on `revision`.  What keeps the numbers
dense is that the rows of an event, in the order they were written, are its dates in the
order they arrived, numbered from one (`Ordered`): the largest number is then how many there
are, and a conflict update leaves dates and numbers alone.

The column is a 32-bit integer; the model has natural numbers.
-/
import QuantPlatform.Db.Upsert

namespace QuantPlatform
namespace Db

open Relational Temporal

variable {Key Value : Type} [DecidableEq Key]

/-- The rows of an event, in the order they were written. -/
def eventRows (table : RevisionTable Key Value) (key : Key) : List (RevisionRow Key Value) :=
  table.rows.filter fun r => r.key = key

/-- The revisions of each event are numbered in the order in which its dates arrived, and
each holds what was submitted first under its date. -/
structure Numbered (table : RevisionTable Key Value) (facts : List (Fact Key Instant Value)) :
    Prop where
  dense : ∀ key, ((eventRows table key).map RevisionRow.revision).Perm
    (List.range' 1 (arrivals facts key).length)
  inOrder : ∀ r ∈ table.rows,
    (arrivals facts r.key)[r.revision - 1]? = some r.availableAt
  firstSubmitted : ∀ r ∈ table.rows, first facts r.key r.availableAt = some r.value

omit [DecidableEq Key] in
/-- Every row of the one table is in the other, but for its `ingested_at`. -/
def Extends (before after : RevisionTable Key Value) : Prop :=
  ∀ r ∈ before.rows, ∃ at', { r with ingestedAt := at' } ∈ after.rows

/-- The table after the first `n` rows of the batches, those of a batch one by one. -/
def tableAt (batches : List (List (RevisionInput Key Value))) (n : Nat) :
    RevisionTable Key Value :=
  (batches.flatten.take n).foldl appendRevisionRow Table.empty

/-! ## The invariant -/

/-- The date and the number of a row. -/
def RevisionRow.numbered (r : RevisionRow Key Value) : Instant × Nat := (r.availableAt, r.revision)

def Ordered (table : RevisionTable Key Value) (facts : List (Fact Key Instant Value)) : Prop :=
  ∀ key, (eventRows table key).map RevisionRow.numbered = (arrivals facts key).zipIdx 1

theorem foldl_max_range' (n : Nat) : (List.range' 1 n).foldl Nat.max 0 = n := by
  induction n with
  | zero => rfl
  | succ n ih =>
    rw [List.range'_1_concat, List.foldl_append, ih]
    show max n (1 + n) = n + 1
    omega

section Invariant

variable {table : RevisionTable Key Value} {facts : List (Fact Key Instant Value)}

theorem Ordered.map_revision (h : Ordered table facts) (key : Key) :
    (eventRows table key).map RevisionRow.revision =
      List.range' 1 (arrivals facts key).length := by
  have hsnd := congrArg (List.map Prod.snd) (h key)
  rwa [List.zipIdx_map_snd, List.map_map] at hsnd

theorem Ordered.map_availableAt (h : Ordered table facts) (key : Key) :
    (eventRows table key).map RevisionRow.availableAt = arrivals facts key := by
  have hfst := congrArg (List.map Prod.fst) (h key)
  rwa [List.zipIdx_map_fst, List.map_map] at hfst

/-- The next revision of an event is one more than the dates it has. -/
theorem Ordered.nextRevision (h : Ordered table facts) (key : Key) :
    nextRevision table key = (arrivals facts key).length + 1 := by
  have hmax := foldl_max_range' (arrivals facts key).length
  rw [← h.map_revision key] at hmax
  exact congrArg (· + 1) hmax

theorem Ordered.exists_row_iff (h : Ordered table facts) (input : RevisionInput Key Value) :
    (∃ r ∈ table.rows, r.naturalKey = input.naturalKey) ↔
      input.availableAt ∈ arrivals facts input.key := by
  rw [← h.map_availableAt, List.mem_map]
  constructor
  · intro hrow
    obtain ⟨r, hr, hkey⟩ := hrow
    refine ⟨r, ?_, congrArg Prod.snd hkey⟩
    exact List.mem_filter.mpr ⟨hr, decide_eq_true (congrArg Prod.fst hkey)⟩
  · intro hrow
    obtain ⟨r, hr, hat⟩ := hrow
    obtain ⟨hmem, hkey⟩ := List.mem_filter.mp hr
    exact ⟨r, hmem, Prod.ext (of_decide_eq_true hkey) hat⟩

theorem eventRows_appendRevisionRow_of_exists {input : RevisionInput Key Value}
    (hstored : ∃ r ∈ table.rows, r.naturalKey = input.naturalKey) (key : Key) :
    (eventRows (appendRevisionRow table input) key).map RevisionRow.numbered =
      (eventRows table key).map RevisionRow.numbered := by
  unfold eventRows appendRevisionRow
  rw [Table.rows_insert_of_exists _ hstored, List.filter_map, List.map_map]
  have hkey : ((fun r : RevisionRow Key Value => decide (r.key = key)) ∘ fun r =>
      if r.naturalKey = (input.toRow table).naturalKey then
        (touchIngestedAt Key Value).set r (input.toRow table) else r) =
      fun r => decide (r.key = key) := by
    funext r
    rw [Function.comp_apply]
    split
    · rfl
    · rfl
  rw [hkey]
  refine List.map_congr_left fun r _ => ?_
  rw [Function.comp_apply]
  split
  · rfl
  · rfl

theorem eventRows_appendRevisionRow_of_not_exists {input : RevisionInput Key Value}
    (hnew : ¬ ∃ r ∈ table.rows, r.naturalKey = input.naturalKey) (key : Key) :
    eventRows (appendRevisionRow table input) key =
      eventRows table key ++ if input.key = key then [input.toRow table] else [] := by
  unfold eventRows appendRevisionRow
  rw [Table.rows_insert_of_not_exists _ hnew, List.filter_append]
  congr 1
  by_cases hkey : input.key = key
  · rw [if_pos hkey]
    exact List.filter_cons_of_pos (decide_eq_true hkey)
  · rw [if_neg hkey]
    exact List.filter_cons_of_neg (mt of_decide_eq_true hkey)

/-- A date that has arrived before changes nothing, and a new one is numbered next. -/
theorem Ordered.appendRevisionRow (h : Ordered table facts) (input : RevisionInput Key Value) :
    Ordered (appendRevisionRow table input) (facts ++ [input.fact]) := by
  intro key
  by_cases hstored : ∃ r ∈ table.rows, r.naturalKey = input.naturalKey
  · have harrived := (h.exists_row_iff input).mp hstored
    rw [eventRows_appendRevisionRow_of_exists hstored, h key]
    by_cases hkey : input.key = key
    · subst hkey
      have hsame : arrivals (facts ++ [input.fact]) input.key = arrivals facts input.key :=
        (arrivals_snoc facts input.fact).trans (if_pos harrived)
      rw [hsame]
    · rw [arrivals_snoc_of_ne facts hkey]
  · have hnew := mt (h.exists_row_iff input).mpr hstored
    rw [eventRows_appendRevisionRow_of_not_exists hstored, List.map_append, h key]
    by_cases hkey : input.key = key
    · subst hkey
      have hsnoc : arrivals (facts ++ [input.fact]) input.key =
          arrivals facts input.key ++ [input.availableAt] :=
        (arrivals_snoc facts input.fact).trans (if_neg hnew)
      rw [hsnoc, List.zipIdx_append, if_pos rfl, List.map_singleton]
      have hrow : (input.toRow table).numbered =
          (input.availableAt, 1 + (arrivals facts input.key).length) :=
        congrArg (Prod.mk input.availableAt) ((h.nextRevision input.key).trans (Nat.add_comm _ _))
      rw [hrow]
      rfl
    · rw [arrivals_snoc_of_ne facts hkey, if_neg hkey, List.map_nil, List.append_nil]

theorem Ordered.foldl (h : Ordered table facts) (rows : List (RevisionInput Key Value)) :
    Ordered (rows.foldl Db.appendRevisionRow table) (facts ++ rows.map RevisionInput.fact) :=
  foldl_appendRevisionRow (fun input hordered => hordered.appendRevisionRow input) h rows

theorem Ordered.numbered (h : Ordered table facts) (hrecords : Records table facts) :
    Numbered table facts where
  dense key := by rw [h.map_revision key]
  inOrder r hr := by
    have hrow : r.numbered ∈ (eventRows table r.key).map RevisionRow.numbered :=
      List.mem_map_of_mem (List.mem_filter.mpr ⟨hr, decide_eq_true rfl⟩)
    rw [h r.key, List.mem_zipIdx_iff_le_and_getElem?_sub] at hrow
    exact hrow.2
  firstSubmitted r hr := by
    rw [← hrecords r.key r.availableAt]
    exact congrArg (Option.map RevisionRow.value) ((Table.mem_rows_iff table r).mp hr)

end Invariant

theorem ordered_empty : Ordered (Table.empty : RevisionTable Key Value) [] := fun _ => rfl

theorem extends_appendRevisionRow (table : RevisionTable Key Value)
    (input : RevisionInput Key Value) : Extends table (appendRevisionRow table input) := by
  intro r hr
  by_cases hkey : r.naturalKey = input.naturalKey
  · refine ⟨input.ingestedAt, (Table.mem_rows_iff _ _).mpr ?_⟩
    show (appendRevisionRow table input).find r.naturalKey = _
    rw [find_appendRevisionRow, if_pos hkey, (Table.mem_rows_iff table r).mp hr]
    rfl
  · refine ⟨r.ingestedAt, (Table.mem_rows_iff _ _).mpr ?_⟩
    show (appendRevisionRow table input).find r.naturalKey = some r
    rw [find_appendRevisionRow, if_neg hkey]
    exact (Table.mem_rows_iff table r).mp hr

theorem extends_foldl (rows : List (RevisionInput Key Value)) (table : RevisionTable Key Value) :
    Extends table (rows.foldl appendRevisionRow table) := by
  induction rows generalizing table with
  | nil => exact fun r hr => ⟨r.ingestedAt, hr⟩
  | cons input rest ih =>
    intro r hr
    obtain ⟨at', hstep⟩ := extends_appendRevisionRow table input r hr
    exact ih (appendRevisionRow table input) { r with ingestedAt := at' } hstep

/-- After whole batches the table is that of their rows. -/
theorem appendBatches_take (batches : List (List (RevisionInput Key Value))) (n : Nat) :
    appendBatches Table.empty (batches.take n) =
      tableAt batches (batches.take n).flatten.length := by
  have hsplit : batches.flatten = (batches.take n).flatten ++ (batches.drop n).flatten := by
    rw [← List.flatten_append, List.take_append_drop]
  rw [appendBatches_eq, tableAt, hsplit, List.take_left]

theorem numbered_tableAt (batches : List (List (RevisionInput Key Value))) (n : Nat) :
    Numbered (tableAt batches n) ((batches.flatten.take n).map RevisionInput.fact) :=
  (ordered_empty.foldl (batches.flatten.take n)).numbered
    (records_empty.foldl (batches.flatten.take n))

theorem extends_tableAt (batches : List (List (RevisionInput Key Value))) (n m : Nat) :
    Extends (tableAt batches n) (tableAt batches (n + m)) := by
  unfold tableAt
  rw [List.take_add, List.foldl_append]
  exact extends_foldl _ _

theorem revisions_dense_and_stable (batches : List (List (RevisionInput Key Value))) :
    (∀ n, appendBatches Table.empty (batches.take n) =
      tableAt batches (batches.take n).flatten.length) ∧
    (∀ n, Numbered (tableAt batches n) ((batches.flatten.take n).map RevisionInput.fact)) ∧
    ∀ n m, Extends (tableAt batches n) (tableAt batches (n + m)) :=
  ⟨appendBatches_take batches, numbered_tableAt batches, extends_tableAt batches⟩

end Db
end QuantPlatform
