/-
What a reader at `as_of` learns of the orderbook, and what later calls do to it.

`get_latest_as_of` returns a snapshot of greatest `event_time` among those
available, which is a choice when two sources tie.  A later call keeps the
`available_at` of a snapshot it meets again and rewrites its levels, so unlike
the revisioned tables it can reach back: it leaves every read alone exactly when
it writes the latest snapshots as they are stored (`sameLatest_commit_iff`).
-/
import QuantPlatform.Db.PointInTime

namespace QuantPlatform
namespace Db

open Relational

/-- A snapshot that `get_latest_as_of` may return for its instrument. -/
def IsLatestSnapshot (snapshots : OrderbookSnapshots) (asOf : Instant)
    (s : OrderBookSnapshotRow) : Prop :=
  s ∈ visibleSnapshots snapshots s.instrumentId asOf ∧
    ∀ u ∈ visibleSnapshots snapshots s.instrumentId asOf, u.eventTime ≤ s.eventTime

theorem getLatestAsOf_isLatest {order : SnapshotOrder} {snapshots : OrderbookSnapshots}
    {instrumentId : Nat} {asOf : Instant} {s : OrderBookSnapshotRow}
    (h : getLatestAsOf order snapshots instrumentId asOf = some s) :
    s.instrumentId = instrumentId ∧ IsLatestSnapshot snapshots asOf s := by
  obtain ⟨hmem, hfirst⟩ := order.le_of_head_arrange h
  have hid : s.instrumentId = instrumentId := ((mem_visibleSnapshots_iff ..).mp hmem).2.1
  subst hid
  refine ⟨rfl, hmem, fun u hu => ?_⟩
  rcases hfirst u hu with hus | hus
  · exact hus ▸ le_rfl
  · exact hus

theorem exists_getLatestAsOf (order : SnapshotOrder) {snapshots : OrderbookSnapshots}
    {asOf : Instant} {s : OrderBookSnapshotRow} (h : IsLatestSnapshot snapshots asOf s) :
    ∃ order' : SnapshotOrder, getLatestAsOf order' snapshots s.instrumentId asOf = some s :=
  order.exists_head_arrange h.1 h.2

theorem getLatestAsOf_eq_none {order : SnapshotOrder} {snapshots : OrderbookSnapshots}
    {instrumentId : Nat} {asOf : Instant}
    (h : ∀ s, IsLatestSnapshot snapshots asOf s → s.instrumentId ≠ instrumentId) :
    getLatestAsOf order snapshots instrumentId asOf = none := by
  cases hlatest : getLatestAsOf order snapshots instrumentId asOf with
  | none => rfl
  | some s =>
    obtain ⟨hid, hs⟩ := getLatestAsOf_isLatest hlatest
    exact absurd hid (h s hs)

/-- The same snapshots are the latest ones at `as_of`. -/
def SameLatest (asOf : Instant) (snapshots snapshots' : OrderbookSnapshots) : Prop :=
  ∀ s, IsLatestSnapshot snapshots asOf s ↔ IsLatestSnapshot snapshots' asOf s

theorem SameLatest.exists_getLatestAsOf_eq {asOf : Instant}
    {snapshots snapshots' : OrderbookSnapshots} (h : SameLatest asOf snapshots snapshots')
    (order : SnapshotOrder) (instrumentId : Nat) :
    ∃ order' : SnapshotOrder, getLatestAsOf order' snapshots' instrumentId asOf =
      getLatestAsOf order snapshots instrumentId asOf := by
  cases hlatest : getLatestAsOf order snapshots instrumentId asOf with
  | some s =>
    obtain ⟨hid, hs⟩ := getLatestAsOf_isLatest hlatest
    subst hid
    exact exists_getLatestAsOf order ((h s).mp hs)
  | none =>
    refine ⟨order, getLatestAsOf_eq_none fun s hs hid => ?_⟩
    -- A latest snapshot would have been visible, and the read not empty.
    subst hid
    have hnil := (order.perm _).symm.trans (by rw [List.head?_eq_none_iff.mp hlatest])
    have hmem := ((h s).mpr hs).1
    rw [List.Perm.eq_nil hnil] at hmem
    cases hmem

/-! ## One later call -/

/-- The call writes the latest snapshots at `as_of` as they are stored, unless it
is refused. -/
def UpsertCall.KeepsLatest (asOf : Instant) (db : Database) : UpsertCall → Prop
  | .snapshots rows =>
      (rows.map OrderBookSnapshotRow.naturalKey).Nodup →
        ∀ row ∈ rows, ∀ s, IsLatestSnapshot db.orderbookSnapshots asOf s →
          s.naturalKey = row.naturalKey →
          row.currency = s.currency ∧ row.asks = s.asks ∧ row.bids = s.bids ∧
            row.ingestedAt = s.ingestedAt
  | _ => True

theorem updateSnapshot_eq_iff {s row : OrderBookSnapshotRow} :
    updateSnapshot.set s row = s ↔
      row.currency = s.currency ∧ row.asks = s.asks ∧ row.bids = s.bids ∧
        row.ingestedAt = s.ingestedAt := by
  obtain ⟨_, _, _, _, _, _, _, _⟩ := s
  simp only [updateSnapshot, OrderBookSnapshotRow.mk.injEq, true_and, and_true]
  constructor
  · intro h
    exact ⟨h.2.1, h.2.2.1, h.2.2.2, h.1⟩
  · intro h
    exact ⟨h.2.2.2, h.1, h.2.1, h.2.2.1⟩

section Written

variable {snapshots : OrderbookSnapshots} {rows : List OrderBookSnapshotRow} {asOf : Instant}
  (hnodup : (rows.map OrderBookSnapshotRow.naturalKey).Nodup)

include hnodup

/-- A stored snapshot is still there under its key and `available_at`. -/
theorem exists_mem_written {u : OrderBookSnapshotRow} (hu : u ∈ snapshots.rows) :
    ∃ u' ∈ (snapshots.insertAll updateSnapshot rows).rows,
      u'.naturalKey = u.naturalKey ∧ u'.availableAt = u.availableAt ∧
        (u' = u ∨ ∃ row ∈ rows, row.naturalKey = u.naturalKey ∧ u' = updateSnapshot.set u row) := by
  have hfind := (Table.mem_rows_iff snapshots u).mp hu
  by_cases hk : u.naturalKey ∈ rows.map OrderBookSnapshotRow.naturalKey
  · obtain ⟨row, hrow, hkey⟩ := List.mem_map.mp hk
    refine ⟨updateSnapshot.set u row, ?_, rfl, rfl, Or.inr ⟨row, hrow, hkey, rfl⟩⟩
    rw [Table.mem_insertAll_iff _ hnodup]
    exact Or.inl ⟨row, hrow, by rw [hkey, hfind]; rfl⟩
  · refine ⟨u, ?_, rfl, rfl, Or.inl rfl⟩
    rw [Table.mem_insertAll_iff _ hnodup]
    exact Or.inr ⟨hu, hk⟩

/-- A snapshot visible at `as_of` was so before, if the rows came later. -/
theorem exists_mem_of_mem_written (hlater : ∀ row ∈ rows, asOf < row.availableAt)
    {u' : OrderBookSnapshotRow}
    (hu' : u' ∈ (snapshots.insertAll updateSnapshot rows).rows) (hat : u'.availableAt ≤ asOf) :
    ∃ u ∈ snapshots.rows, u.naturalKey = u'.naturalKey ∧ u.availableAt = u'.availableAt ∧
      (u' = u ∨ ∃ row ∈ rows, row.naturalKey = u.naturalKey ∧ u' = updateSnapshot.set u row) := by
  rcases (Table.mem_insertAll_iff _ hnodup snapshots u').mp hu' with ⟨row, hrow, heq⟩ | ⟨hu, _⟩
  · cases hfind : snapshots.find row.naturalKey with
    | none =>
      rw [heq, hfind] at hat
      exact absurd hat (not_le.mpr (hlater row hrow))
    | some old =>
      rw [hfind] at heq
      obtain ⟨hold, hkey⟩ := (Table.find_eq_some_iff ..).mp hfind
      subst heq
      exact ⟨old, hold, rfl, rfl, Or.inr ⟨row, hrow, hkey.symm, rfl⟩⟩
  · exact ⟨u', hu, rfl, rfl, Or.inl rfl⟩

theorem eventTime_le_of_isLatest (hlater : ∀ row ∈ rows, asOf < row.availableAt)
    {s s' : OrderBookSnapshotRow} (hkey : s.naturalKey = s'.naturalKey)
    (hs : IsLatestSnapshot snapshots asOf s) :
    ∀ u' ∈ visibleSnapshots (snapshots.insertAll updateSnapshot rows) s'.instrumentId asOf,
      u'.eventTime ≤ s'.eventTime := by
  intro u' hu'
  obtain ⟨hmem, hid, hat⟩ := (mem_visibleSnapshots_iff ..).mp hu'
  obtain ⟨u, hu, hukey, huat, _⟩ := exists_mem_of_mem_written hnodup hlater hmem hat
  simp only [OrderBookSnapshotRow.naturalKey, SnapshotKey.mk.injEq] at hkey hukey
  rw [← hukey.2.1, ← hkey.2.1]
  exact hs.2 u ((mem_visibleSnapshots_iff ..).mpr
    ⟨hu, hukey.1.trans (hid.trans hkey.1.symm), huat.le.trans hat⟩)

/-- Whether a key is that of a latest snapshot is out of reach of later rows. -/
theorem isLatest_written (hlater : ∀ row ∈ rows, asOf < row.availableAt)
    {s s' : OrderBookSnapshotRow} (hs : IsLatestSnapshot snapshots asOf s)
    (hs' : s' ∈ (snapshots.insertAll updateSnapshot rows).rows)
    (hkey : s.naturalKey = s'.naturalKey) (hat : s'.availableAt ≤ asOf) :
    IsLatestSnapshot (snapshots.insertAll updateSnapshot rows) asOf s' :=
  ⟨(mem_visibleSnapshots_iff ..).mpr ⟨hs', rfl, hat⟩,
    eventTime_le_of_isLatest hnodup hlater hkey hs⟩

theorem isLatest_of_written {s s' : OrderBookSnapshotRow}
    (hs' : IsLatestSnapshot (snapshots.insertAll updateSnapshot rows) asOf s')
    (hs : s ∈ snapshots.rows) (hkey : s.naturalKey = s'.naturalKey)
    (hat : s.availableAt ≤ asOf) : IsLatestSnapshot snapshots asOf s := by
  refine ⟨(mem_visibleSnapshots_iff ..).mpr ⟨hs, rfl, hat⟩, fun u hu => ?_⟩
  obtain ⟨hmem, hid, huat⟩ := (mem_visibleSnapshots_iff ..).mp hu
  obtain ⟨u', hu', hukey, huat', _⟩ := exists_mem_written hnodup hmem
  simp only [OrderBookSnapshotRow.naturalKey, SnapshotKey.mk.injEq] at hkey hukey
  rw [← hukey.2.1, hkey.2.1]
  exact hs'.2 u' ((mem_visibleSnapshots_iff ..).mpr
    ⟨hu', hukey.1.trans (hid.trans hkey.1), huat'.le.trans huat⟩)

/-- Later rows leave the latest snapshots alone exactly when each of them that
meets one writes what is stored. -/
theorem sameLatest_written_iff (hlater : ∀ row ∈ rows, asOf < row.availableAt) :
    SameLatest asOf snapshots (snapshots.insertAll updateSnapshot rows) ↔
      ∀ row ∈ rows, ∀ s, IsLatestSnapshot snapshots asOf s → s.naturalKey = row.naturalKey →
        updateSnapshot.set s row = s := by
  have hstored : ∀ {s}, IsLatestSnapshot snapshots asOf s →
      s ∈ snapshots.rows ∧ s.availableAt ≤ asOf := by
    intro s hs
    obtain ⟨hmem, _, hat⟩ := (mem_visibleSnapshots_iff ..).mp hs.1
    exact ⟨hmem, hat⟩
  constructor
  · intro h row hrow s hs hkey
    have hwritten : updateSnapshot.set s row ∈
        (snapshots.insertAll updateSnapshot rows).rows := by
      rw [Table.mem_insertAll_iff _ hnodup]
      refine Or.inl ⟨row, hrow, ?_⟩
      rw [← hkey, (Table.mem_rows_iff snapshots s).mp (hstored hs).1]
      rfl
    have hs' := ((mem_visibleSnapshots_iff ..).mp ((h s).mp hs).1).1
    exact Table.eq_of_key_eq _ hwritten hs' rfl
  · intro h s
    constructor
    · intro hs
      obtain ⟨hmem, hat⟩ := hstored hs
      obtain ⟨s', hs', hkey, _, hsame⟩ := exists_mem_written hnodup hmem
      have heq : s' = s := by
        rcases hsame with hsame | ⟨row, hrow, hrowKey, hset⟩
        · exact hsame
        · exact hset.trans (h row hrow s hs hrowKey.symm)
      subst heq
      exact isLatest_written hnodup hlater hs hs' rfl hat
    · intro hs
      obtain ⟨hmem, _, hat⟩ := (mem_visibleSnapshots_iff ..).mp hs.1
      obtain ⟨u, hu, hkey, huat, hsame⟩ := exists_mem_of_mem_written hnodup hlater hmem hat
      have hlatest := isLatest_of_written hnodup hs hu hkey (huat.le.trans hat)
      have heq : s = u := by
        rcases hsame with hsame | ⟨row, hrow, hrowKey, hset⟩
        · exact hsame
        · exact hset.trans (h row hrow u hlatest hrowKey.symm)
      exact heq ▸ hlatest

end Written

theorem sameLatest_commit_iff {asOf : Instant} {call : UpsertCall}
    (hlater : call.AvailableAfter asOf) (db : Database) :
    SameLatest asOf db.orderbookSnapshots (call.commit db).orderbookSnapshots ↔
      call.KeepsLatest asOf db := by
  cases call with
  | bars rows => exact iff_of_true (fun _ => Iff.rfl) trivial
  | news rows => exact iff_of_true (fun _ => Iff.rfl) trivial
  | disclosures rows => exact iff_of_true (fun _ => Iff.rfl) trivial
  | snapshots rows =>
    by_cases hnodup : (rows.map OrderBookSnapshotRow.naturalKey).Nodup
    · have hok := (upsertEventRows_ok_iff updateSnapshot db.orderbookSnapshots rows _).mpr
        ⟨hnodup, rfl⟩
      rw [UpsertCall.commit_snapshots_ok hok]
      show SameLatest asOf db.orderbookSnapshots
        (db.orderbookSnapshots.insertAll updateSnapshot rows) ↔ _
      rw [sameLatest_written_iff hnodup hlater]
      simp only [UpsertCall.KeepsLatest, hnodup, true_implies, updateSnapshot_eq_iff]
    · -- The statement is refused.
      refine iff_of_true ?_ fun h => absurd h hnodup
      cases hrun : upsertSnapshots db.orderbookSnapshots rows with
      | error e =>
        rw [UpsertCall.commit_snapshots_error hrun]
        exact fun _ => Iff.rfl
      | ok written =>
        exact absurd ((upsertEventRows_ok_iff ..).mp hrun).1 hnodup

/-- A later call makes no snapshot visible that was not. -/
theorem exists_mem_of_mem_commit {asOf : Instant} {call : UpsertCall}
    (hlater : call.AvailableAfter asOf) {db : Database} {s' : OrderBookSnapshotRow}
    (hs' : s' ∈ (call.commit db).orderbookSnapshots.rows) (hat : s'.availableAt ≤ asOf) :
    ∃ s ∈ db.orderbookSnapshots.rows,
      s.naturalKey = s'.naturalKey ∧ s.availableAt = s'.availableAt := by
  cases call with
  | bars rows => exact ⟨s', hs', rfl, rfl⟩
  | news rows => exact ⟨s', hs', rfl, rfl⟩
  | disclosures rows => exact ⟨s', hs', rfl, rfl⟩
  | snapshots rows =>
    cases hrun : upsertSnapshots db.orderbookSnapshots rows with
    | error e =>
      rw [UpsertCall.commit_snapshots_error hrun] at hs'
      exact ⟨s', hs', rfl, rfl⟩
    | ok written =>
      rw [UpsertCall.commit_snapshots_ok hrun] at hs'
      obtain ⟨hnodup, hwritten⟩ := (upsertEventRows_ok_iff ..).mp hrun
      subst hwritten
      obtain ⟨s, hs, hkey, hsat, _⟩ := exists_mem_of_mem_written hnodup hlater hs' hat
      exact ⟨s, hs, hkey, hsat⟩

/-! ## A run of later calls -/

/-- Each call of the run keeps the latest snapshots it finds. -/
def Database.KeepsLatest (asOf : Instant) : Database → List UpsertCall → Prop
  | _, [] => True
  | db, call :: rest => call.KeepsLatest asOf db ∧ (call.commit db).KeepsLatest asOf rest

theorem Database.KeepsLatest.sameLatest {asOf : Instant} {calls : List UpsertCall}
    {db : Database} (hlater : ∀ call ∈ calls, call.AvailableAfter asOf)
    (h : db.KeepsLatest asOf calls) :
    SameLatest asOf db.orderbookSnapshots (db.after calls).orderbookSnapshots := by
  induction calls generalizing db with
  | nil => exact fun _ => Iff.rfl
  | cons call rest ih =>
    have hcall := (sameLatest_commit_iff (hlater call List.mem_cons_self) db).mpr h.1
    have hrest := ih (fun c hc => hlater c (List.mem_cons_of_mem call hc)) h.2
    exact fun s => (hcall s).trans (hrest s)

theorem Database.KeepsLatest.take {asOf : Instant} {calls : List UpsertCall} {db : Database}
    (h : db.KeepsLatest asOf calls) (n : Nat) : db.KeepsLatest asOf (calls.take n) := by
  induction calls generalizing db n with
  | nil =>
    rw [List.take_nil]
    trivial
  | cons call rest ih =>
    cases n with
    | zero => trivial
    | succ n => exact ⟨h.1, ih h.2 n⟩

end Db
end QuantPlatform
