/-
`upsert_event_rows` beside its rows upserted one by one.

Rows are given by column, and a natural key and an update list are lists of columns.
Upserted one by one, rows under a key leave the update columns and `ingested_at` of the
last and every other column of the first.  One statement for the batch does the same
unless two of its rows share a key, which the database refuses.
-/
import QuantPlatform.Db.Upsert
import QuantPlatform.Python.Raise

namespace QuantPlatform
namespace Db

open Relational

variable {Value : Type}

/-- A row as the statement inserts it: a column that is not given has its default. -/
abbrev ColumnRow (Value : Type) := String → Value

def keyOf (naturalKeyColumns : List String) (row : ColumnRow Value) : List Value :=
  naturalKeyColumns.map row

/-- The columns of the `SET` clause. -/
def IsSet (updateColumns : List String) (column : String) : Prop :=
  column ∈ updateColumns ∨ column = "ingested_at"

instance (updateColumns : List String) (column : String) :
    Decidable (IsSet updateColumns column) := inferInstanceAs (Decidable (_ ∨ _))

/-- `SET column = EXCLUDED.column`.  Rows that collide have the same key columns, so there
is nothing to set in these. -/
def setColumns (naturalKeyColumns updateColumns : List String) :
    ConflictClause (ColumnRow Value) (keyOf naturalKeyColumns) where
  set old new column :=
    if IsSet updateColumns column ∧ column ∉ naturalKeyColumns then new column else old column
  key_set old new := by
    refine List.map_congr_left fun column hcolumn => ?_
    rw [if_neg fun h => h.2 hcolumn]

section Columns

variable [DecidableEq Value] (naturalKeyColumns updateColumns : List String)

abbrev ColumnTable (Value : Type) (naturalKeyColumns : List String) :=
  Table (ColumnRow Value) (keyOf naturalKeyColumns)

/-- `upsert_event_rows` in the update mode. -/
def upsertColumns (table : ColumnTable Value naturalKeyColumns) (rows : List (ColumnRow Value)) :
    Except Exn (ColumnTable Value naturalKeyColumns) :=
  (upsertEventRows (setColumns naturalKeyColumns updateColumns) .update table rows).map Prod.fst

/-- A call for each row. -/
def upsertOneByOne (table : ColumnTable Value naturalKeyColumns)
    (rows : List (ColumnRow Value)) : Except Exn (ColumnTable Value naturalKeyColumns) :=
  rows.foldlM (fun table row => upsertColumns naturalKeyColumns updateColumns table [row]) table

/-- What rows written under one key come to. -/
def merged (written : List (ColumnRow Value)) : Option (ColumnRow Value) :=
  match written with
  | [] => none
  | first :: rest =>
      some fun column =>
        if IsSet updateColumns column then (rest.getLast?.getD first) column else first column

/-- The rows that were written under a key: the stored one and those of the batch. -/
def writtenUnder (table : ColumnTable Value naturalKeyColumns) (rows : List (ColumnRow Value))
    (key : List Value) : List (ColumnRow Value) :=
  (table.find key).toList ++ rows.filter fun row => keyOf naturalKeyColumns row = key

/-- The batch leaves the table that its rows one by one leave, with one row for each key:
the columns of the `SET` clause from the last row under it and the others from the first. -/
def EqualsOneByOne (table : ColumnTable Value naturalKeyColumns)
    (rows : List (ColumnRow Value)) : Prop :=
  ∃ result, upsertColumns naturalKeyColumns updateColumns table rows = .ok result ∧
    upsertOneByOne naturalKeyColumns updateColumns table rows = .ok result ∧
    ∀ key, result.find key =
      merged updateColumns (writtenUnder naturalKeyColumns table rows key)

variable {naturalKeyColumns updateColumns}

theorem upsertColumns_eq_ok_iff (table result : ColumnTable Value naturalKeyColumns)
    (rows : List (ColumnRow Value)) :
    upsertColumns naturalKeyColumns updateColumns table rows = .ok result ↔
      (rows.map (keyOf naturalKeyColumns)).Nodup ∧
        result = table.insertAll (setColumns naturalKeyColumns updateColumns) rows := by
  rw [upsertColumns]
  constructor
  · intro h
    cases hupsert : upsertEventRows (setColumns naturalKeyColumns updateColumns) .update table
        rows with
    | error e =>
      rw [hupsert] at h
      cases h
    | ok written =>
      rw [hupsert] at h
      cases h
      obtain ⟨hnodup, rfl⟩ := (upsertEventRows_ok_iff ..).mp hupsert
      exact ⟨hnodup, rfl⟩
  · intro h
    obtain ⟨hnodup, rfl⟩ := h
    rw [(upsertEventRows_ok_iff ..).mpr ⟨hnodup, rfl⟩]
    rfl

/-- Row by row nothing is refused. -/
theorem upsertOneByOne_eq (table : ColumnTable Value naturalKeyColumns)
    (rows : List (ColumnRow Value)) :
    upsertOneByOne naturalKeyColumns updateColumns table rows =
      .ok (table.insertAll (setColumns naturalKeyColumns updateColumns) rows) := by
  induction rows generalizing table with
  | nil => rfl
  | cons row rows ih =>
    have hrow : upsertColumns naturalKeyColumns updateColumns table [row] =
        .ok (table.insert (setColumns naturalKeyColumns updateColumns) row) :=
      (upsertColumns_eq_ok_iff table _ [row]).mpr ⟨List.nodup_singleton _, rfl⟩
    rw [upsertOneByOne, List.foldlM_cons, hrow]
    exact ih _

omit [DecidableEq Value] in
theorem merged_eq_none {written : List (ColumnRow Value)}
    (h : merged updateColumns written = none) : written = [] := by
  cases written with
  | nil => rfl
  | cons first rest => cases h

omit [DecidableEq Value] in
/-- One more row is one more update. -/
theorem merged_concat {written : List (ColumnRow Value)} {stored row : ColumnRow Value}
    (h : merged updateColumns written = some stored)
    (hkeys : ∀ column ∈ naturalKeyColumns, row column = stored column) :
    merged updateColumns (written ++ [row]) =
      some ((setColumns naturalKeyColumns updateColumns).set stored row) := by
  cases written with
  | nil => cases h
  | cons first rest =>
    cases h
    show some _ = some _
    congr 1
    funext column
    simp only [setColumns]
    by_cases hset : IsSet updateColumns column
    · by_cases hkey : column ∈ naturalKeyColumns
      · simpa [hset, hkey] using hkeys column hkey
      · simp [hset, hkey]
    · simp [hset]

/-- Whatever the batch, each key has the merge of what was written under it. -/
theorem find_insertAll_eq_merged (table : ColumnTable Value naturalKeyColumns)
    (rows : List (ColumnRow Value)) (key : List Value) :
    (table.insertAll (setColumns naturalKeyColumns updateColumns) rows).find key =
      merged updateColumns (writtenUnder naturalKeyColumns table rows key) := by
  induction rows using List.reverseRecOn with
  | nil =>
    rw [writtenUnder, List.filter_nil, List.append_nil]
    show table.find key = _
    cases table.find key with
    | none => rfl
    | some stored =>
      show some stored = some _
      congr 1
      funext column
      simp
  | append_singleton rows row ih =>
    rw [Table.insertAll, List.foldl_append]
    show ((table.insertAll (setColumns naturalKeyColumns updateColumns) rows).insert _ row).find
      key = _
    rw [Table.find_insert]
    by_cases hkey : key = keyOf naturalKeyColumns row
    · have hsame : writtenUnder naturalKeyColumns table (rows ++ [row]) key =
          writtenUnder naturalKeyColumns table rows key ++ [row] := by
        simp [writtenUnder, hkey]
      rw [if_pos hkey, hsame]
      cases hfind : (table.insertAll (setColumns naturalKeyColumns updateColumns) rows).find
          key with
      | none =>
        rw [hfind] at ih
        rw [merged_eq_none ih.symm]
        exact (congrArg some (funext fun column => ite_self _)).symm
      | some stored =>
        rw [hfind] at ih
        have hkeys : keyOf naturalKeyColumns row = keyOf naturalKeyColumns stored := by
          rw [← hkey, Table.key_of_find hfind]
        exact (merged_concat ih.symm (List.map_inj_left.mp hkeys)).symm
    · have hother : writtenUnder naturalKeyColumns table (rows ++ [row]) key =
          writtenUnder naturalKeyColumns table rows key := by
        simp [writtenUnder, Ne.symm hkey]
      rw [if_neg hkey, hother, ih]

/-- A batch equals its rows one by one exactly when no two of them share a key. -/
theorem equalsOneByOne_iff (table : ColumnTable Value naturalKeyColumns)
    (rows : List (ColumnRow Value)) :
    EqualsOneByOne naturalKeyColumns updateColumns table rows ↔
      (rows.map (keyOf naturalKeyColumns)).Nodup := by
  constructor
  · intro h
    obtain ⟨result, hresult, _⟩ := h
    exact ((upsertColumns_eq_ok_iff table result rows).mp hresult).1
  · intro h
    exact ⟨_, (upsertColumns_eq_ok_iff table _ rows).mpr ⟨h, rfl⟩, upsertOneByOne_eq table rows,
      find_insertAll_eq_merged table rows⟩

end Columns

/-- A snapshot of one position, with its quantity. -/
def positionRow (quantity : String) : ColumnRow String := fun column =>
  ([("account_id", "A-1"), ("instrument_id", "7"), ("event_time", "2026-09-01T00:00:00+00:00"),
    ("available_at", "2026-09-01T00:00:01+00:00"), ("quantity", quantity), ("avg_price", "72000"),
    ("source", "toss")].lookup column).getD ""

/-- The position reported twice in one batch. -/
theorem position_twice_refused :
    ¬ ∀ (naturalKeyColumns updateColumns : List String)
      (table : ColumnTable String naturalKeyColumns) (rows : List (ColumnRow String)),
        EqualsOneByOne naturalKeyColumns updateColumns table rows := by
  intro h
  obtain ⟨result, hresult, _⟩ := h ["account_id", "instrument_id", "event_time", "source"]
    ["quantity", "avg_price"] Table.empty [positionRow "10", positionRow "12"]
  have hnodup := ((upsertColumns_eq_ok_iff ..).mp hresult).1
  exact absurd hnodup (by decide)

end Db
end QuantPlatform
