/-
Writers that race.

The rows of `upsert_event_rows` are computed from nothing, so its races are serial, in the
order of the commits.

`append_revision_rows` computes a revision from the revisions before it, and says that it
assumes a single writer for an event.  Two transactions that correct one event at a time each
compute the next revision from a snapshot without the other's row, and the unique constraint,
which is on the logical key and `available_at`, has nothing to say about it.

That is all that goes wrong.  Whatever the transactions append, in any interleaving of their
statements, commits and rollbacks, the table is the one that the committed transactions leave
one after another, but for revisions that lag behind (`Lags`), and these not at all for the
events that no two open transactions write at a time.  An as-of read takes the last
`available_at` of an event and never has to look at the revision, so it returns what it
would.
-/
import QuantPlatform.Db.Positions
import QuantPlatform.Db.Revisions
import QuantPlatform.Transactions.Upserts

namespace QuantPlatform
namespace Db

open Relational Transactions.Upserts

variable {Key Value : Type}

/-- A row without its revision. -/
def RevisionRow.submission (r : RevisionRow Key Value) : RevisionInput Key Value :=
  { key := r.key, availableAt := r.availableAt, ingestedAt := r.ingestedAt, value := r.value }

variable [DecidableEq Key]

/-- The subquery, over the rows of a snapshot. -/
def nextRevisionAmong (rows : List (RevisionRow Key Value)) (key : Key) : Nat :=
  ((rows.filter fun r => r.key = key).map RevisionRow.revision).foldl Nat.max 0 + 1

variable (Key Value) in
/-- The statement `append_revision_rows` executes for each row. -/
def appendStatement :
    Statement (RevisionRow Key Value) RevisionRow.naturalKey (RevisionInput Key Value) where
  keyOf := RevisionInput.naturalKey
  row rows input :=
    { key := input.key
      availableAt := input.availableAt
      ingestedAt := input.ingestedAt
      revision := nextRevisionAmong rows input.key
      value := input.value }
  key_row _ _ := rfl

/-- Alone with the table, the statement is `append_revision_row`. -/
theorem insert_appendStatement (table : RevisionTable Key Value) (input : RevisionInput Key Value) :
    table.insert (touchIngestedAt Key Value) ((appendStatement Key Value).row table.rows input) =
      appendRevisionRow table input := rfl

omit [DecidableEq Key] in
/-- Two rows of one event come from one writer, if the event is to have a single one. -/
def SingleWriter (solo : Key → Prop) (a b : RevisionInput Key Value) : Prop :=
  a.key = b.key → ¬ solo b.key

section Race

variable {ι : Type} [DecidableEq ι]

/-- The runs of transactions that append rows, in which the events of `solo` have a single
writer at a time. -/
abbrev Races (solo : Key → Prop) :
    World ι (RevisionInput Key Value) (RevisionRow Key Value) →
      World ι (RevisionInput Key Value) (RevisionRow Key Value) → Prop :=
  Reachable (touchIngestedAt Key Value) (appendStatement Key Value) (SingleWriter solo)

end Race

theorem foldl_max_le_iff (revisions : List Nat) (first n : Nat) :
    revisions.foldl Nat.max first ≤ n ↔ first ≤ n ∧ ∀ revision ∈ revisions, revision ≤ n := by
  induction revisions generalizing first with
  | nil => simp
  | cons revision rest ih =>
    rw [List.foldl_cons, ih, List.forall_mem_cons, ← and_assoc]
    exact and_congr_left fun _ => Nat.max_le

/-- The next revision is past every revision of the event, and no further. -/
theorem nextRevision_le_iff (table : RevisionTable Key Value) (key : Key) (n : Nat) :
    nextRevision table key ≤ n + 1 ↔ ∀ r ∈ table.rows, r.key = key → r.revision ≤ n := by
  unfold nextRevision
  rw [Nat.add_le_add_iff_right, foldl_max_le_iff]
  simp only [List.mem_map, List.mem_filter, decide_eq_true_eq]
  constructor
  · intro h r hr hkey
    exact h.2 _ ⟨r, ⟨hr, hkey⟩, rfl⟩
  · intro h
    refine ⟨Nat.zero_le n, fun revision hrevision => ?_⟩
    obtain ⟨r, ⟨hr, hkey⟩, rfl⟩ := hrevision
    exact h r hr hkey

theorem nextRevision_mono {table later : RevisionTable Key Value} {key : Key}
    (h : ∀ r ∈ table.rows, r.key = key →
      ∃ r' ∈ later.rows, r'.key = key ∧ r.revision ≤ r'.revision) :
    nextRevision table key ≤ nextRevision later key := by
  have hlater := (nextRevision_le_iff later key _).mp (Nat.le_refl (nextRevision later key))
  refine (nextRevision_le_iff table key _).mpr fun r hr hkey => ?_
  obtain ⟨r', hr', hkey', hle⟩ := h r hr hkey
  exact Nat.le_trans hle (hlater r' hr' hkey')

/-- A row more, and no revision is gone. -/
theorem nextRevision_insert_le (table : RevisionTable Key Value) (row : RevisionRow Key Value)
    (key : Key) :
    nextRevision table key ≤ nextRevision (table.insert (touchIngestedAt Key Value) row) key := by
  refine nextRevision_mono fun r hr hkey => ?_
  by_cases hsame : r.naturalKey = row.naturalKey
  · refine ⟨_, (Table.mem_insert_iff ..).mpr (Or.inl rfl), ?_⟩
    rw [← hsame, (Table.mem_rows_iff table r).mp hr]
    exact ⟨hkey, Nat.le_refl _⟩
  · exact ⟨r, (Table.mem_insert_iff ..).mpr (Or.inr ⟨hr, hsame⟩), hkey, Nat.le_refl _⟩

/-- A row of another event does not count. -/
theorem nextRevision_insert_of_ne (table : RevisionTable Key Value) {row : RevisionRow Key Value}
    {key : Key} (hne : row.key ≠ key) :
    nextRevision (table.insert (touchIngestedAt Key Value) row) key ≤ nextRevision table key := by
  refine nextRevision_mono fun r hr hkey => ?_
  rcases (Table.mem_insert_iff ..).mp hr with rfl | ⟨hr, _⟩
  · have hstored : (Table.stored (touchIngestedAt Key Value) (table.find row.naturalKey)
        row).naturalKey = row.naturalKey := Table.key_stored _ row
    exact absurd ((congrArg Prod.fst hstored).symm.trans hkey) hne
  · exact ⟨r, hr, hkey, Nat.le_refl _⟩

/-- A row is its input with a revision that is not past the next one, and is the next one
where the event has a single writer. -/
def appendCriterion (solo : Key → Prop) :
    Criterion (touchIngestedAt Key Value) (appendStatement Key Value) (SingleWriter solo) where
  Fits table input row :=
    row.submission = input ∧ row.revision ≤ nextRevision table input.key ∧
      (solo input.key → nextRevision table input.key ≤ row.revision)
  fits_alike := by
    intro table table' input row halike h
    obtain ⟨hrow, hle, hge⟩ := h
    have hmem : ∀ r, r ∈ table.rows ↔ r ∈ table'.rows := by
      intro r
      rw [Table.mem_rows_iff, Table.mem_rows_iff, halike]
    have hsame : nextRevision table input.key = nextRevision table' input.key :=
      Nat.le_antisymm
        (nextRevision_mono fun r hr hkey => ⟨r, (hmem r).mp hr, hkey, Nat.le_refl _⟩)
        (nextRevision_mono fun r hr hkey => ⟨r, (hmem r).mpr hr, hkey, Nat.le_refl _⟩)
    exact ⟨hrow, hsame ▸ hle, hsame ▸ hge⟩
  fits_row table input := ⟨rfl, Nat.le_refl _, fun _ => Nat.le_refl _⟩
  fits_insert := by
    intro table input row input' row' h hkey hsingle
    obtain ⟨hrow, hle, hge⟩ := h
    refine ⟨hrow, Nat.le_trans hle (nextRevision_insert_le table row' input.key), fun hsolo => ?_⟩
    have hne : row'.key ≠ input.key := fun he =>
      hsingle ((congrArg Prod.fst hkey).symm.trans he) hsolo
    exact Nat.le_trans (nextRevision_insert_of_ne table hne) (hge hsolo)

/-! ## A table that lags -/

omit [DecidableEq Key] in
/-- The same row but for its revision, which may be behind. -/
structure Lags (solo : Key → Prop) (r s : RevisionRow Key Value) : Prop where
  submission : r.submission = s.submission
  revision_le : r.revision ≤ s.revision
  revision_eq : solo r.key → r.revision = s.revision

omit [DecidableEq Key] in
theorem Lags.key_eq {solo : Key → Prop} {r s : RevisionRow Key Value} (h : Lags solo r s) :
    r.key = s.key := congrArg RevisionInput.key h.submission

omit [DecidableEq Key] in
theorem Lags.availableAt_eq {solo : Key → Prop} {r s : RevisionRow Key Value}
    (h : Lags solo r s) : r.availableAt = s.availableAt :=
  congrArg RevisionInput.availableAt h.submission

omit [DecidableEq Key] in
theorem Lags.naturalKey_eq {solo : Key → Prop} {r s : RevisionRow Key Value}
    (h : Lags solo r s) : r.naturalKey = s.naturalKey := Prod.ext h.key_eq h.availableAt_eq

omit [DecidableEq Key] in
theorem Lags.refl (solo : Key → Prop) (r : RevisionRow Key Value) : Lags solo r r :=
  ⟨rfl, Nat.le_refl _, fun _ => rfl⟩

theorem exists_of_forall₂ {α β : Type} {R : α → β → Prop} {xs : List α} {ys : List β}
    (h : List.Forall₂ R xs ys) {x : α} (hx : x ∈ xs) : ∃ y ∈ ys, R x y := by
  induction h with
  | nil => cases hx
  | cons hxy _ ih =>
    rcases List.mem_cons.mp hx with rfl | hx
    · exact ⟨_, List.mem_cons_self, hxy⟩
    · obtain ⟨y, hy, hxy⟩ := ih hx
      exact ⟨y, List.mem_cons_of_mem _ hy, hxy⟩

omit [DecidableEq Key] in
/-- Row by row in the order of writing. -/
def Behind (solo : Key → Prop) (table serial : RevisionTable Key Value) : Prop :=
  List.Forall₂ (Lags solo) table.rows serial.rows

section Behind

variable {solo : Key → Prop} {table serial : RevisionTable Key Value}

omit [DecidableEq Key] in
theorem behind_refl (solo : Key → Prop) (table : RevisionTable Key Value) :
    Behind solo table table := List.forall₂_same.mpr fun r _ => Lags.refl solo r

omit [DecidableEq Key] in
theorem Behind.exists_serial (h : Behind solo table serial) {r : RevisionRow Key Value}
    (hr : r ∈ table.rows) : ∃ s ∈ serial.rows, Lags solo r s := exists_of_forall₂ h hr

omit [DecidableEq Key] in
theorem Behind.exists_table (h : Behind solo table serial) {s : RevisionRow Key Value}
    (hs : s ∈ serial.rows) : ∃ r ∈ table.rows, Lags solo r s := exists_of_forall₂ h.flip hs

theorem Behind.nextRevision_le (h : Behind solo table serial) (key : Key) :
    nextRevision table key ≤ nextRevision serial key := by
  refine nextRevision_mono fun r hr hkey => ?_
  obtain ⟨s, hs, hlags⟩ := h.exists_serial hr
  exact ⟨s, hs, hlags.key_eq.symm.trans hkey, hlags.revision_le⟩

theorem Behind.le_nextRevision (h : Behind solo table serial) {key : Key} (hsolo : solo key) :
    nextRevision serial key ≤ nextRevision table key := by
  refine nextRevision_mono fun s hs hkey => ?_
  obtain ⟨r, hr, hlags⟩ := h.exists_table hs
  have hrkey := hlags.key_eq.trans hkey
  exact ⟨r, hr, hrkey, Nat.le_of_eq (hlags.revision_eq (hrkey ▸ hsolo)).symm⟩

omit [DecidableEq Key] in
theorem Behind.exists_naturalKey_iff (h : Behind solo table serial) (k : Key × Instant) :
    (∃ r ∈ table.rows, r.naturalKey = k) ↔ ∃ s ∈ serial.rows, s.naturalKey = k := by
  constructor
  · intro hrow
    obtain ⟨r, hr, hkey⟩ := hrow
    obtain ⟨s, hs, hlags⟩ := h.exists_serial hr
    exact ⟨s, hs, hlags.naturalKey_eq.symm.trans hkey⟩
  · intro hrow
    obtain ⟨s, hs, hkey⟩ := hrow
    obtain ⟨r, hr, hlags⟩ := h.exists_table hs
    exact ⟨r, hr, hlags.naturalKey_eq.trans hkey⟩

/-- A row that fits takes the branch of the row appended in its turn. -/
theorem Behind.insert (h : Behind solo table serial) {input : RevisionInput Key Value}
    {row : RevisionRow Key Value} (hfits : (appendCriterion solo).Fits table input row) :
    Behind solo (table.insert (touchIngestedAt Key Value) row)
      (appendRevisionRow serial input) := by
  obtain ⟨rfl, hle, hge⟩ := hfits
  unfold Behind appendRevisionRow
  by_cases hstored : ∃ r ∈ table.rows, r.naturalKey = row.naturalKey
  · have hserial : ∃ s ∈ serial.rows,
        s.naturalKey = (row.submission.toRow serial).naturalKey :=
      (h.exists_naturalKey_iff row.naturalKey).mp hstored
    rw [Table.rows_insert_of_exists _ hstored, Table.rows_insert_of_exists _ hserial,
      List.forall₂_map_left_iff, List.forall₂_map_right_iff]
    refine List.Forall₂.imp (fun r s hlags => ?_) h
    by_cases hkey : r.naturalKey = row.naturalKey
    · have hskey : s.naturalKey = (row.submission.toRow serial).naturalKey :=
        hlags.naturalKey_eq.symm.trans hkey
      rw [if_pos hkey, if_pos hskey]
      have hsubmission := congrArg
        (fun i : RevisionInput Key Value => { i with ingestedAt := row.ingestedAt })
        hlags.submission
      exact ⟨hsubmission, hlags.revision_le, hlags.revision_eq⟩
    · have hskey : ¬ s.naturalKey = (row.submission.toRow serial).naturalKey := fun he =>
        hkey (hlags.naturalKey_eq.trans he)
      rw [if_neg hkey, if_neg hskey]
      exact hlags
  · have hserial : ¬ ∃ s ∈ serial.rows,
        s.naturalKey = (row.submission.toRow serial).naturalKey :=
      mt (h.exists_naturalKey_iff row.naturalKey).mpr hstored
    rw [Table.rows_insert_of_not_exists _ hstored, Table.rows_insert_of_not_exists _ hserial]
    refine List.rel_append h (List.Forall₂.cons ⟨rfl, ?_, fun hsolo => ?_⟩ List.Forall₂.nil)
    · exact Nat.le_trans hle (h.nextRevision_le _)
    · exact Nat.le_antisymm (Nat.le_trans hle (h.nextRevision_le _))
        (Nat.le_trans (h.le_nextRevision hsolo) (hge hsolo))

/-- What fits one row after another leaves a table that lags behind its inputs appended. -/
theorem Behind.settle {sent : List (Sent (RevisionInput Key Value) (RevisionRow Key Value))}
    (h : Behind solo table serial) (hfitting : Fitting (appendCriterion solo) table sent) :
    Behind solo (Transactions.Upserts.settle (touchIngestedAt Key Value) table sent)
      ((sent.map Sent.input).foldl appendRevisionRow serial) := by
  induction hfitting generalizing serial with
  | nil => exact h
  | cons _ _ hfits _ ih => exact ih (h.insert hfits)

/-! ## As-of reads -/

omit [DecidableEq Key] in
/-- No two rows of a table are one row but for their revision. -/
theorem submissions_nodup {rows : List (RevisionRow Key Value)}
    (h : (rows.map RevisionRow.key).Nodup) : (rows.map RevisionRow.submission).Nodup := by
  have hkeys : (rows.map RevisionRow.submission).map RevisionInput.key =
      rows.map RevisionRow.key := by
    rw [List.map_map]
    rfl
  exact List.Nodup.of_map RevisionInput.key (hkeys ▸ h)

omit [DecidableEq Key] in
theorem Behind.map_submission (h : Behind solo table serial) :
    table.rows.map RevisionRow.submission = serial.rows.map RevisionRow.submission := by
  rw [← List.forall₂_eq_eq_eq, List.forall₂_map_left_iff, List.forall₂_map_right_iff]
  exact List.Forall₂.imp (fun r s hlags => hlags.submission) h

end Behind

omit [DecidableEq Key] in
theorem exists_of_map_submission {table table' : RevisionTable Key Value}
    (h : table.rows.map RevisionRow.submission = table'.rows.map RevisionRow.submission)
    {r : RevisionRow Key Value} (hr : r ∈ table.rows) :
    ∃ s ∈ table'.rows, s.submission = r.submission := by
  have hmem := List.mem_map_of_mem (f := RevisionRow.submission) hr
  rw [h] at hmem
  exact List.mem_map.mp hmem

/-- A row that is read of one table is, but for its revision, read of another that differs
in revisions only. -/
theorem latestRevisions_subset {table table' : RevisionTable Key Value}
    (h : table.rows.map RevisionRow.submission = table'.rows.map RevisionRow.submission)
    (filters : RevisionInput Key Value → Bool) (asOf : Instant) :
    (latestRevisions table (fun r => filters r.submission) asOf).map RevisionRow.submission ⊆
      (latestRevisions table' (fun r => filters r.submission) asOf).map
        RevisionRow.submission := by
  intro submission hsubmission
  obtain ⟨r, hr, rfl⟩ := List.mem_map.mp hsubmission
  obtain ⟨⟨hmem, hfilter, hat⟩, hlatest⟩ := (mem_latestRevisions_iff ..).mp hr
  obtain ⟨s, hs, hsame⟩ := exists_of_map_submission h hmem
  have hkey : s.key = r.key := congrArg RevisionInput.key hsame
  have hsat : s.availableAt = r.availableAt := congrArg RevisionInput.availableAt hsame
  rw [← hsame] at hfilter
  rw [← hsat] at hat
  refine List.mem_map.mpr ⟨s, (mem_latestRevisions_iff ..).mpr ⟨⟨hs, hfilter, hat⟩, ?_⟩, hsame⟩
  intro q hq hqfilter hqat hqkey
  obtain ⟨p, hp, hpq⟩ := exists_of_map_submission h.symm hq
  have hpkey : p.key = q.key := congrArg RevisionInput.key hpq
  have hpat : p.availableAt = q.availableAt := congrArg RevisionInput.availableAt hpq
  rw [← hpq] at hqfilter
  rw [← hpat] at hqat ⊢
  rw [hsat]
  exact hlatest p hp hqfilter hqat (hpkey.trans (hqkey.trans hkey))

/-- No read tells two tables apart that differ in revisions only. -/
theorem selectLatestRevisionAsOf_perm {table table' : RevisionTable Key Value}
    (h : table.rows.map RevisionRow.submission = table'.rows.map RevisionRow.submission)
    {eventTime : RevisionRow Key Value → Instant}
    (order order' : OrderBy (RevisionRow Key Value) fun a b => eventTime a ≤ eventTime b)
    (filters : RevisionInput Key Value → Bool) (asOf : Instant) :
    ((selectLatestRevisionAsOf order table (fun r => filters r.submission) asOf).map
        RevisionRow.submission).Perm
      ((selectLatestRevisionAsOf order' table' (fun r => filters r.submission) asOf).map
        RevisionRow.submission) := by
  refine ((order.perm _).map _).trans (List.Perm.trans ?_ ((order'.perm _).map _).symm)
  have hnodup : ∀ t : RevisionTable Key Value,
      ((latestRevisions t (fun r => filters r.submission) asOf).map
        RevisionRow.submission).Nodup := fun t =>
    submissions_nodup (keys_latestRevisions_nodup t _ asOf)
  rw [List.perm_ext_iff_of_nodup (hnodup table) (hnodup table')]
  intro submission
  constructor
  · exact fun hmem => latestRevisions_subset h filters asOf hmem
  · exact fun hmem => latestRevisions_subset h.symm filters asOf hmem

/-! ## Every interleaving -/

/-- The rows are, but for revisions that lag behind, those of a table, and make a table that
every read takes for it. -/
structure SameButRevisions (solo : Key → Prop) (written : List (RevisionRow Key Value))
    (serial : RevisionTable Key Value) : Prop where
  rows : List.Forall₂ (Lags solo) written serial.rows
  reads : ∃ table : RevisionTable Key Value, table.rows = written ∧
    ∀ {eventTime : RevisionRow Key Value → Instant}
      (order order' : OrderBy (RevisionRow Key Value) fun a b => eventTime a ≤ eventTime b)
      (filters : RevisionInput Key Value → Bool) (asOf : Instant),
      ((selectLatestRevisionAsOf order table (fun r => filters r.submission) asOf).map
          RevisionRow.submission).Perm
        ((selectLatestRevisionAsOf order' serial (fun r => filters r.submission) asOf).map
          RevisionRow.submission)

theorem Behind.sameButRevisions {solo : Key → Prop} {table serial : RevisionTable Key Value}
    (h : Behind solo table serial) : SameButRevisions solo table.rows serial where
  rows := h
  reads := ⟨table, rfl, fun order order' filters asOf =>
    selectLatestRevisionAsOf_perm h.map_submission order order' filters asOf⟩

/-- In every run of racing writers the committed rows are, but for revisions, what the
committed transactions append one after another in the order of their commits, and what an
open transaction sees is that and what it has appended itself.  Revisions only lag behind,
and do not for an event that no two open transactions write at a time. -/
theorem race_shows_in_revisions_only {ι : Type} [DecidableEq ι] (solo : Key → Prop)
    (stored : RevisionTable Key Value)
    {w : World ι (RevisionInput Key Value) (RevisionRow Key Value)}
    (h : Races solo (World.start stored.rows) w) :
    SameButRevisions solo w.rows
        (appendRevisionRows stored (w.log.map Sent.input)).1 ∧
      ∀ i, (w.txn i).status = .active →
        SameButRevisions solo (w.visible (touchIngestedAt Key Value) i)
          (appendRevisionRows stored ((w.log ++ (w.txn i).sent).map Sent.input)).1 := by
  have hinv := Reachable.inv (appendCriterion solo) h
  have hbehind := behind_refl solo stored
  constructor
  · rw [hinv.rows]
    exact (hbehind.settle hinv.log).sameButRevisions
  · intro i hactive
    rw [hinv.visible hactive]
    exact (hbehind.settle (hinv.log.append (hinv.sent i hactive))).sameButRevisions

def firstPrice : RevisionTable Nat String where
  rows := [{ key := 7, availableAt := 1, ingestedAt := 1, revision := 1, value := "72000" }]
  unique := by decide

def priceCorrection (availableAt : Instant) (value : String) : RevisionInput Nat String :=
  { key := 7, availableAt := availableAt, ingestedAt := availableAt, value := value }

/-- Two collectors correct one price at a time, and both corrections are the second. -/
theorem corrections_race :
    ∃ w : World Bool (RevisionInput Nat String) (RevisionRow Nat String),
      w.rows.map RevisionRow.revision = [1, 2, 2] ∧
      w.log.map Sent.input = [priceCorrection 3 "72200", priceCorrection 2 "72100"] ∧
      SameButRevisions (fun _ => False) w.rows
        (appendRevisionRows firstPrice (w.log.map Sent.input)).1 := by
  have hapart : ∀ w : World Bool (RevisionInput Nat String) (RevisionRow Nat String),
      w.Apart (SingleWriter fun _ => False) := fun _ _ _ _ _ _ _ _ _ _ _ h => h
  have hfirst : Races (fun _ => False) (World.start firstPrice.rows) _ :=
    Relation.ReflTransGen.single
      ⟨Step.begin _ false (priceCorrection 2 "72100") rfl rfl, hapart _⟩
  have hsecond := hfirst.tail ⟨Step.begin _ true (priceCorrection 3 "72200") rfl rfl, hapart _⟩
  have hwritten := hsecond.tail ⟨Step.finish _ false _ _ rfl rfl (by
    rintro ⟨j, hj, _, s, hs, _⟩
    cases j with
    | false => exact hj rfl
    | true => cases hs), hapart _⟩
  have hboth := hwritten.tail ⟨Step.finish _ true _ _ rfl rfl (by
    rintro ⟨j, hj, _, s, hs, hkey⟩
    cases j with
    | false =>
      rw [List.mem_singleton.mp hs] at hkey
      exact absurd hkey (by decide)
    | true => exact hj rfl), hapart _⟩
  have hcommitted := hboth.tail ⟨Step.commit _ true rfl rfl, hapart _⟩
  have hdone := hcommitted.tail ⟨Step.commit _ false rfl rfl, hapart _⟩
  exact ⟨_, rfl, rfl, (race_shows_in_revisions_only _ firstPrice hdone).1⟩

/-! ## Plain events -/

section PlainEvents

variable {ι ρ κ : Type} {key : ρ → κ} [DecidableEq ι] [DecidableEq κ]

/-- A row of `upsert_event_rows`, which is written as it is given. -/
def plainStatement (key : ρ → κ) : Statement ρ key ρ where
  keyOf := key
  row _ input := input
  key_row _ _ := rfl

def plainCriterion (update : ConflictClause ρ key) :
    Criterion update (plainStatement key) fun _ _ => True where
  Fits _ input row := row = input
  fits_alike _ h := h
  fits_row _ _ := rfl
  fits_insert h _ _ := h

/-- Rows in one call each, after the calls before. -/
def afterCalls (update : ConflictClause ρ key) (stored : Table ρ key) (rows : List ρ) :
    Table ρ key :=
  rows.foldl (fun table row => commitBatch update .update table [row]) stored

theorem commitBatch_singleton (update : ConflictClause ρ key) (table : Table ρ key) (row : ρ) :
    commitBatch update .update table [row] = table.insert update row := by
  have hok := (upsertEventRows_ok_iff update table [row] _).mpr ⟨List.nodup_singleton _, rfl⟩
  simp only [commitBatch, hok]
  rfl

theorem settle_plain {update : ConflictClause ρ key} {stored : Table ρ key}
    {sent : List (Sent ρ ρ)} (h : Fitting (plainCriterion update) stored sent) :
    settle update stored sent = afterCalls update stored (sent.map Sent.input) := by
  induction h with
  | nil => rfl
  | cons _ _ hfits _ ih =>
    rw [afterCalls, List.map_cons, List.foldl_cons, commitBatch_singleton, ← hfits]
    exact ih

/-- In every run of racing upserts the committed rows are what the rows of the committed
transactions, in the order of their commits, leave one call after another, and what an open
transaction sees is that and its own. -/
theorem plain_race_is_serial (update : ConflictClause ρ key) (stored : Table ρ key)
    {w : World ι ρ ρ}
    (h : Reachable update (plainStatement key) (fun _ _ => True) (World.start stored.rows) w) :
    w.rows = (afterCalls update stored (w.log.map Sent.input)).rows ∧
      ∀ i, (w.txn i).status = .active →
        w.visible update i =
          (afterCalls update stored ((w.log ++ (w.txn i).sent).map Sent.input)).rows := by
  have hinv := Reachable.inv (plainCriterion update) h
  constructor
  · rw [hinv.rows, settle_plain hinv.log]
  · intro i hactive
    rw [hinv.visible hactive, settle_plain (hinv.log.append (hinv.sent i hactive))]

end PlainEvents

def deliveredPosition (availableAt : Instant) (quantity : Int) : PositionRow where
  accountId := "A-1"
  instrumentId := 7
  eventTime := 1
  availableAt := availableAt
  ingestedAt := availableAt
  quantity := Decimal.ofInt quantity
  avgPrice := none
  source := "toss"

/-- Two collectors deliver a position: the second has to wait for the first, and its quantity
goes under the date of the first. -/
theorem deliveries_race :
    ∃ w : World Bool PositionRow PositionRow,
      w.rows = [{ deliveredPosition 2 12 with ingestedAt := 3 }] ∧
      w.rows = (afterCalls Positions.update Table.empty
        [deliveredPosition 2 10, deliveredPosition 3 12]).rows := by
  have hfirst : Reachable Positions.update (plainStatement _) (fun _ _ => True)
      (World.start (Table.empty : Table PositionRow PositionRow.naturalKey).rows) _ :=
    Relation.ReflTransGen.single
      ⟨Step.begin _ false (deliveredPosition 2 10) rfl rfl, fun _ _ _ _ _ _ _ _ _ => trivial⟩
  have hsecond := hfirst.tail ⟨Step.begin _ true (deliveredPosition 3 12) rfl rfl,
    fun _ _ _ _ _ _ _ _ _ => trivial⟩
  have hwritten := hsecond.tail ⟨Step.finish _ false _ _ rfl rfl (by
    rintro ⟨j, hj, _, s, hs, _⟩
    cases j with
    | false => exact hj rfl
    | true => cases hs), fun _ _ _ _ _ _ _ _ _ => trivial⟩
  have hcommitted := hwritten.tail ⟨Step.commit _ false rfl rfl,
    fun _ _ _ _ _ _ _ _ _ => trivial⟩
  have hrewritten := hcommitted.tail ⟨Step.finish _ true _ _ rfl rfl (by
    rintro ⟨j, hj, hopen, _⟩
    cases j with
    | false => cases hopen
    | true => exact hj rfl), fun _ _ _ _ _ _ _ _ _ => trivial⟩
  have hdone := hrewritten.tail ⟨Step.commit _ true rfl rfl, fun _ _ _ _ _ _ _ _ _ => trivial⟩
  exact ⟨_, rfl, (plain_race_is_serial Positions.update Table.empty hdone).1⟩

end Db
end QuantPlatform
