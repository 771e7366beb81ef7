import QuantPlatform.Db.Database
import QuantPlatform.Db.Migration
import QuantPlatform.Db.RevisionNumbers

namespace QuantPlatform
namespace Db

open Relational Temporal

section Table

variable {Key Value : Type} [DecidableEq Key]

/-- `ADD CONSTRAINT … UNIQUE (<logical key>)`, and the column is dropped. -/
def downgradeTable (table : RevisionTable Key Value) : Except Exn (EventTable Key Value) :=
  if h : (table.rows.map RevisionRow.key).Nodup then
    .ok { rows := table.rows.map RevisionRow.event, unique := by rw [List.map_map]; exact h }
  else .error .integrityError

theorem downgradeTable_eq_ok_iff {table : RevisionTable Key Value} {old : EventTable Key Value} :
    downgradeTable table = .ok old ↔
      (table.rows.map RevisionRow.key).Nodup ∧ old.rows = table.rows.map RevisionRow.event := by
  unfold downgradeTable
  split_ifs with h
  · rw [and_iff_right h, Except.ok.injEq]
    constructor
    · rintro rfl
      rfl
    · intro hrows
      cases old
      cases hrows
      rfl
  · exact iff_of_false (by simp) fun hok => h hok.1

theorem exists_downgradeTable_iff {table : RevisionTable Key Value} :
    (∃ old, downgradeTable table = .ok old) ↔ (table.rows.map RevisionRow.key).Nodup := by
  constructor
  · rintro ⟨old, hold⟩
    exact (downgradeTable_eq_ok_iff.mp hold).1
  · intro h
    exact ⟨_, dif_pos h⟩

/-- No event comes with two availability times. -/
def OneDate (rows : List (RevisionInput Key Value)) : Prop :=
  ∀ a ∈ rows, ∀ b ∈ rows, a.key = b.key → a.availableAt = b.availableAt

section Written

variable {table : RevisionTable Key Value} {rows : List (RevisionInput Key Value)}

theorem mem_arrivals_iff {key : Key} {at' : Instant} :
    at' ∈ arrivals (rows.map RevisionInput.fact) key ↔
      ∃ input ∈ rows, input.key = key ∧ input.availableAt = at' := by
  unfold arrivals
  rw [List.mem_eraseDups]
  simp only [List.mem_map, List.mem_filter, decide_eq_true_eq]
  constructor
  · rintro ⟨_, ⟨⟨input, hinput, rfl⟩, hkey⟩, hat⟩
    exact ⟨input, hinput, hkey, hat⟩
  · rintro ⟨input, hinput, hkey, hat⟩
    exact ⟨input.fact, ⟨⟨input, hinput, rfl⟩, hkey⟩, hat⟩

variable (h : Ordered table (rows.map RevisionInput.fact))

include h

theorem Ordered.exists_input {r : RevisionRow Key Value} (hr : r ∈ table.rows) :
    ∃ input ∈ rows, input.key = r.key ∧ input.availableAt = r.availableAt := by
  rw [← mem_arrivals_iff, ← h.map_availableAt]
  exact List.mem_map_of_mem (List.mem_filter.mpr ⟨hr, decide_eq_true rfl⟩)

theorem Ordered.exists_row {input : RevisionInput Key Value} (hinput : input ∈ rows) :
    ∃ r ∈ table.rows, r.naturalKey = input.naturalKey :=
  (h.exists_row_iff input).mpr (mem_arrivals_iff.mpr ⟨input, hinput, rfl, rfl⟩)

/-- An event has two rows when it came with two availability times. -/
theorem Ordered.keys_nodup_iff : (table.rows.map RevisionRow.key).Nodup ↔ OneDate rows := by
  constructor
  · intro hnodup a ha b hb hkey
    obtain ⟨r, hr, hra⟩ := h.exists_row ha
    obtain ⟨s, hs, hsb⟩ := h.exists_row hb
    have hsame : r = s := List.inj_on_of_nodup_map hnodup hr hs
      ((congrArg Prod.fst hra).trans (hkey.trans (congrArg Prod.fst hsb).symm))
    rw [hsame, hsb] at hra
    exact (congrArg Prod.snd hra).symm
  · intro hone
    refine table.rows_nodup.map_on fun r hr s hs hkey => table.eq_of_key_eq hr hs ?_
    obtain ⟨a, ha, hakey, haat⟩ := h.exists_input hr
    obtain ⟨b, hb, hbkey, hbat⟩ := h.exists_input hs
    have hat := hone a ha b hb (hakey.trans (hkey.trans hbkey.symm))
    exact Prod.ext hkey (haat.symm.trans (hat.trans hbat))

/-- The one row of an event has the first number. -/
theorem Ordered.revision_eq_one (hnodup : (table.rows.map RevisionRow.key).Nodup)
    {r : RevisionRow Key Value} (hr : r ∈ table.rows) : r.revision = 1 := by
  have hmem : r ∈ eventRows table r.key := List.mem_filter.mpr ⟨hr, decide_eq_true rfl⟩
  have hnumbers := h.map_revision r.key
  cases hrows : eventRows table r.key with
  | nil =>
    rw [hrows] at hmem
    cases hmem
  | cons s rest =>
    have hs : s ∈ eventRows table r.key := hrows ▸ List.mem_cons_self
    obtain ⟨hstored, hkey⟩ := List.mem_filter.mp hs
    have hsame : s = r := List.inj_on_of_nodup_map hnodup hstored hr (of_decide_eq_true hkey)
    rw [hrows, hsame, List.map_cons] at hnumbers
    cases hlength : (arrivals (rows.map RevisionInput.fact) r.key).length with
    | zero =>
      rw [hlength] at hnumbers
      cases hnumbers
    | succ n =>
      rw [hlength, List.range'_succ] at hnumbers
      exact (List.cons.inj hnumbers).1

theorem Ordered.exists_downgradeTable_iff :
    (∃ old, downgradeTable table = .ok old) ↔ OneDate rows :=
  Db.exists_downgradeTable_iff.trans h.keys_nodup_iff

/-- What a downgrade leaves is what the default upgrade would have made the table of. -/
theorem Ordered.preserved_of_downgrade {old : EventTable Key Value}
    (hold : downgradeTable table = .ok old) : Preserved old table := by
  obtain ⟨hnodup, hrows⟩ := downgradeTable_eq_ok_iff.mp hold
  refine FirstRevisions.preserved ?_
  unfold FirstRevisions
  rw [hrows, List.map_map]
  have hid : table.rows.map ((fun r => r.withRevision 1) ∘ RevisionRow.event) =
      table.rows.map id := by
    refine List.map_congr_left fun r hr => ?_
    have hrevision := h.revision_eq_one hnodup hr
    cases r
    cases hrevision
    rfl
  rw [hid, List.map_id]

end Written

/-- The upgrade of a table without a default goes through when it has no rows. -/
theorem exists_upgradeTable_iff {old : EventTable Key Value} :
    (∃ again, upgradeTable none old = .ok again) ↔ old.rows = [] := by
  constructor
  · rintro ⟨again, hagain⟩
    exact ((upgradeTable_none_eq_ok_iff old again).mp hagain).1
  · intro hrows
    obtain ⟨again, hagain, _⟩ := (exists_upgradeTable_none_iff old).mpr hrows
    exact ⟨again, hagain⟩

end Table

section Schema

variable {Disclosure Bar News : Type}

/-- `downgrade`.  The first table that raises undoes the ones before it. -/
def downgrade (schema : RevisionSchema Disclosure Bar News) :
    Except Exn (InitialSchema Disclosure Bar News) := do
  let newsEvents ← downgradeTable schema.newsEvents
  let marketBars ← downgradeTable schema.marketBars
  let disclosureEvents ← downgradeTable schema.disclosureEvents
  return { disclosureEvents, marketBars, newsEvents }

theorem downgrade_eq_ok_iff {schema : RevisionSchema Disclosure Bar News}
    {old : InitialSchema Disclosure Bar News} :
    downgrade schema = .ok old ↔ downgradeTable schema.newsEvents = .ok old.newsEvents ∧
      downgradeTable schema.marketBars = .ok old.marketBars ∧
      downgradeTable schema.disclosureEvents = .ok old.disclosureEvents := by
  unfold downgrade
  constructor
  · intro h
    obtain ⟨news, hnews, h⟩ := Raise.bind_eq_ok_iff.mp h
    obtain ⟨bars, hbars, h⟩ := Raise.bind_eq_ok_iff.mp h
    obtain ⟨disclosures, hdisclosures, h⟩ := Raise.bind_eq_ok_iff.mp h
    cases h
    exact ⟨hnews, hbars, hdisclosures⟩
  · rintro ⟨hnews, hbars, hdisclosures⟩
    rw [hnews, hbars, hdisclosures]
    rfl

theorem exists_upgrade_iff {old : InitialSchema Disclosure Bar News} :
    (∃ again, upgrade old = .ok again) ↔
      old.disclosureEvents.rows = [] ∧ old.marketBars.rows = [] ∧ old.newsEvents.rows = [] := by
  rw [← exists_upgradeTable_iff, ← exists_upgradeTable_iff, ← exists_upgradeTable_iff]
  unfold upgrade
  constructor
  · rintro ⟨again, h⟩
    obtain ⟨disclosures, hdisclosures, h⟩ := Raise.bind_eq_ok_iff.mp h
    obtain ⟨bars, hbars, h⟩ := Raise.bind_eq_ok_iff.mp h
    obtain ⟨news, hnews, _⟩ := Raise.bind_eq_ok_iff.mp h
    exact ⟨⟨disclosures, hdisclosures⟩, ⟨bars, hbars⟩, news, hnews⟩
  · rintro ⟨⟨disclosures, hdisclosures⟩, ⟨bars, hbars⟩, news, hnews⟩
    rw [hdisclosures, hbars, hnews]
    exact ⟨_, rfl⟩

end Schema

namespace UpsertCall

def barRows : UpsertCall → List BarInput
  | bars rows => rows
  | _ => []

def newsRows : UpsertCall → List NewsInput
  | news rows => rows
  | _ => []

def disclosureRows : UpsertCall → List DisclosureInput
  | disclosures rows => rows
  | _ => []

end UpsertCall

/-- The tables that the migration is about. -/
def Database.events (db : Database) : RevisionSchema DisclosureValue BarValue NewsValue where
  disclosureEvents := db.disclosureEvents
  marketBars := db.marketBars
  newsEvents := db.newsEvents

/-- The three tables hold what was delivered to them. -/
structure Delivered (db : Database) (calls : List UpsertCall) : Prop where
  bars : Ordered db.marketBars ((calls.flatMap UpsertCall.barRows).map RevisionInput.fact)
  news : Ordered db.newsEvents ((calls.flatMap UpsertCall.newsRows).map RevisionInput.fact)
  disclosures : Ordered db.disclosureEvents
    ((calls.flatMap UpsertCall.disclosureRows).map RevisionInput.fact)

theorem Ordered.foldl_flatMap {Key Value : Type} [DecidableEq Key]
    {table : RevisionTable Key Value} {rows : UpsertCall → List (RevisionInput Key Value)}
    {calls : List UpsertCall} (h : Ordered table ((calls.flatMap rows).map RevisionInput.fact))
    (call : UpsertCall) : Ordered ((rows call).foldl Db.appendRevisionRow table)
      (((calls ++ [call]).flatMap rows).map RevisionInput.fact) := by
  rw [List.flatMap_append, List.flatMap_singleton, List.map_append]
  exact h.foldl (rows call)

theorem Delivered.commit {db : Database} {calls : List UpsertCall} (h : Delivered db calls)
    (call : UpsertCall) : Delivered (call.commit db) (calls ++ [call]) := by
  have hbars := h.bars.foldl_flatMap call
  have hnews := h.news.foldl_flatMap call
  have hdisclosures := h.disclosures.foldl_flatMap call
  cases call with
  | bars rows => exact ⟨hbars, hnews, hdisclosures⟩
  | news rows => exact ⟨hbars, hnews, hdisclosures⟩
  | disclosures rows => exact ⟨hbars, hnews, hdisclosures⟩
  | snapshots rows =>
    cases hwritten : upsertSnapshots db.orderbookSnapshots rows with
    | error e =>
      rw [UpsertCall.commit_snapshots_error hwritten]
      exact ⟨hbars, hnews, hdisclosures⟩
    | ok written =>
      rw [UpsertCall.commit_snapshots_ok hwritten]
      exact ⟨hbars, hnews, hdisclosures⟩

theorem delivered_after (calls : List UpsertCall) :
    Delivered (Database.empty.after calls) calls := by
  induction calls using List.reverseRecOn with
  | nil => exact ⟨ordered_empty, ordered_empty, ordered_empty⟩
  | append_singleton calls call ih =>
    unfold Database.after at ih ⊢
    rw [List.foldl_append]
    exact ih.commit call

theorem rows_eq_nil_iff {Key Value : Type} [DecidableEq Key] {table : RevisionTable Key Value}
    {rows : List (RevisionInput Key Value)} (h : Ordered table (rows.map RevisionInput.fact))
    {old : EventTable Key Value} (hold : downgradeTable table = .ok old) :
    old.rows = [] ↔ rows = [] := by
  rw [(downgradeTable_eq_ok_iff.mp hold).2, List.map_eq_nil_iff, List.eq_nil_iff_forall_not_mem,
    List.eq_nil_iff_forall_not_mem]
  constructor
  · intro hnone input hinput
    obtain ⟨r, hr, _⟩ := h.exists_row hinput
    exact hnone r hr
  · intro hnone r hr
    obtain ⟨input, hinput, _⟩ := h.exists_input hr
    exact hnone input hinput

/-- Whatever was delivered, the downgrade goes through exactly when no event came with two
availability times.  Then all reads stay what they were, and the upgrade goes through again
exactly when nothing was delivered at all. -/
theorem downgrade_after_run (calls : List UpsertCall) :
    ((∃ old, downgrade (Database.empty.after calls).events = .ok old) ↔
      OneDate (calls.flatMap UpsertCall.disclosureRows) ∧
        OneDate (calls.flatMap UpsertCall.barRows) ∧
        OneDate (calls.flatMap UpsertCall.newsRows)) ∧
    ∀ old, downgrade (Database.empty.after calls).events = .ok old →
      Preserved old.disclosureEvents (Database.empty.after calls).disclosureEvents ∧
      Preserved old.marketBars (Database.empty.after calls).marketBars ∧
      Preserved old.newsEvents (Database.empty.after calls).newsEvents ∧
      ((∃ again, upgrade old = .ok again) ↔
        calls.flatMap UpsertCall.disclosureRows = [] ∧ calls.flatMap UpsertCall.barRows = [] ∧
          calls.flatMap UpsertCall.newsRows = []) := by
  have hdelivered := delivered_after calls
  constructor
  · rw [← hdelivered.disclosures.exists_downgradeTable_iff,
      ← hdelivered.bars.exists_downgradeTable_iff, ← hdelivered.news.exists_downgradeTable_iff]
    constructor
    · rintro ⟨old, hold⟩
      obtain ⟨hnews, hbars, hdisclosures⟩ := downgrade_eq_ok_iff.mp hold
      exact ⟨⟨_, hdisclosures⟩, ⟨_, hbars⟩, _, hnews⟩
    · rintro ⟨⟨disclosures, hdisclosures⟩, ⟨bars, hbars⟩, news, hnews⟩
      exact ⟨⟨disclosures, bars, news⟩, downgrade_eq_ok_iff.mpr ⟨hnews, hbars, hdisclosures⟩⟩
  · intro old hold
    obtain ⟨hnews, hbars, hdisclosures⟩ := downgrade_eq_ok_iff.mp hold
    refine ⟨hdelivered.disclosures.preserved_of_downgrade hdisclosures,
      hdelivered.bars.preserved_of_downgrade hbars,
      hdelivered.news.preserved_of_downgrade hnews, ?_⟩
    rw [exists_upgrade_iff, rows_eq_nil_iff hdelivered.disclosures hdisclosures,
      rows_eq_nil_iff hdelivered.bars hbars, rows_eq_nil_iff hdelivered.news hnews]

end Db
end QuantPlatform
