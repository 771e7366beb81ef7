/-
The migration from the initial schema to the revision history.

In the initial schema an event has one row.  The migration adds the `revision` column to
three tables and widens their unique constraints by `available_at`, all in one
transaction.  A column that takes no `NULL` can be added to a table with rows only if it
has a default.

`Preserved` says what the migration is for.  It holds of a table upgraded with the default
1; the migration gives none.
-/
import QuantPlatform.Db.MarketData
import QuantPlatform.Db.News
import QuantPlatform.Python.Raise

namespace QuantPlatform
namespace Db

open Relational

variable {Key Value : Type}

/-- A row of an event table, with its columns beside the logical key and the two times
as one value. -/
@[ext]
structure EventRow (Key Value : Type) where
  key : Key
  availableAt : Instant
  ingestedAt : Instant
  value : Value
  deriving DecidableEq

abbrev EventTable (Key Value : Type) := Table (EventRow Key Value) EventRow.key

structure InitialSchema (Disclosure Bar News : Type) where
  disclosureEvents : EventTable EventKey Disclosure
  marketBars : EventTable BarKey Bar
  newsEvents : EventTable EventKey News

structure RevisionSchema (Disclosure Bar News : Type) where
  disclosureEvents : RevisionTable EventKey Disclosure
  marketBars : RevisionTable BarKey Bar
  newsEvents : RevisionTable EventKey News

/-- The rows a read lets through: of each event there is only one. -/
def visibleEvents (table : EventTable Key Value) (filters : EventRow Key Value → Bool)
    (asOf : Instant) : List (EventRow Key Value) :=
  table.rows.filter fun r => filters r && decide (r.availableAt ≤ asOf)

def EventRow.withRevision (r : EventRow Key Value) (revision : Nat) : RevisionRow Key Value where
  key := r.key
  availableAt := r.availableAt
  ingestedAt := r.ingestedAt
  revision := revision
  value := r.value

/-- The row without its revision. -/
def RevisionRow.event (r : RevisionRow Key Value) : EventRow Key Value where
  key := r.key
  availableAt := r.availableAt
  ingestedAt := r.ingestedAt
  value := r.value

/-- `ADD COLUMN revision INTEGER NOT NULL`, with what the column has as default. -/
def addRevision (serverDefault : Option Nat) (rows : List (EventRow Key Value)) :
    Except Exn (List (RevisionRow Key Value)) :=
  match serverDefault with
  | some revision => .ok (rows.map fun r => r.withRevision revision)
  | none => if rows = [] then .ok [] else .error .integrityError

/-- `ADD CONSTRAINT … UNIQUE (<logical key>, available_at)`. -/
def createUniqueConstraint [DecidableEq Key] (rows : List (RevisionRow Key Value)) :
    Except Exn (RevisionTable Key Value) :=
  if h : (rows.map RevisionRow.naturalKey).Nodup then .ok { rows, unique := h }
  else .error .integrityError

def upgradeTable [DecidableEq Key] (serverDefault : Option Nat) (table : EventTable Key Value) :
    Except Exn (RevisionTable Key Value) := do
  createUniqueConstraint (← addRevision serverDefault table.rows)

variable {Disclosure Bar News : Type}

/-- `upgrade`.  The first table that raises undoes the ones before it. -/
def upgrade (schema : InitialSchema Disclosure Bar News) :
    Except Exn (RevisionSchema Disclosure Bar News) := do
  let disclosureEvents ← upgradeTable none schema.disclosureEvents
  let marketBars ← upgradeTable none schema.marketBars
  let newsEvents ← upgradeTable none schema.newsEvents
  return { disclosureEvents, marketBars, newsEvents }

section Preserved

variable [DecidableEq Key]

/-- Every row is there with its values and revision 1, a read returns what it returned
before, and the next correction of an event is revision 2. -/
structure Preserved (before : EventTable Key Value) (after : RevisionTable Key Value) : Prop where
  rows : ∀ r : RevisionRow Key Value, r ∈ after.rows ↔ r.event ∈ before.rows ∧ r.revision = 1
  reads : ∀ (eventTime : EventRow Key Value → Instant) (filters : EventRow Key Value → Bool)
    (asOf : Instant) (order : OrderBy (EventRow Key Value) fun a b => eventTime a ≤ eventTime b)
    (order' : OrderBy (RevisionRow Key Value)
      fun a b => eventTime a.event ≤ eventTime b.event),
    SameUpToTies eventTime (order.arrange (visibleEvents before filters asOf))
      ((selectLatestRevisionAsOf order' after (fun r => filters r.event) asOf).map
        RevisionRow.event)
  correction : ∀ r ∈ before.rows, ∀ input : RevisionInput Key Value, input.key = r.key →
    input.availableAt ≠ r.availableAt →
      ((appendRevisionRow after input).find input.naturalKey).map RevisionRow.revision = some 2

/-- All rows that a default of 1 makes have revision 1. -/
def FirstRevisions (before : EventTable Key Value) (after : RevisionTable Key Value) : Prop :=
  after.rows = before.rows.map fun r => r.withRevision 1

theorem upgradeTable_some (table : EventTable Key Value) :
    ∃ after, upgradeTable (some 1) table = .ok after ∧ FirstRevisions table after := by
  have hunique : ((table.rows.map fun r => r.withRevision 1).map
      RevisionRow.naturalKey).Nodup := by
    rw [List.map_map]
    refine List.Nodup.of_map Prod.fst ?_
    rw [List.map_map]
    exact table.unique
  refine ⟨{ rows := table.rows.map fun r => r.withRevision 1, unique := hunique }, ?_, rfl⟩
  show createUniqueConstraint (table.rows.map fun r => r.withRevision 1) = _
  rw [createUniqueConstraint, dif_pos hunique]

variable {before : EventTable Key Value} {after : RevisionTable Key Value}

omit [DecidableEq Key] in
theorem FirstRevisions.mem_iff (h : FirstRevisions before after) (r : RevisionRow Key Value) :
    r ∈ after.rows ↔ r.event ∈ before.rows ∧ r.revision = 1 := by
  rw [h, List.mem_map]
  constructor
  · intro hr
    obtain ⟨s, hs, rfl⟩ := hr
    exact ⟨hs, rfl⟩
  · intro hr
    obtain ⟨hs, hrevision⟩ := hr
    exact ⟨r.event, hs, by rw [← hrevision]; rfl⟩

omit [DecidableEq Key] in
/-- An event has one revision. -/
theorem FirstRevisions.eq_of_key_eq (h : FirstRevisions before after) {r s : RevisionRow Key Value}
    (hr : r ∈ after.rows) (hs : s ∈ after.rows) (hkey : r.key = s.key) : r = s := by
  obtain ⟨hr, hrevision⟩ := (h.mem_iff r).mp hr
  obtain ⟨hs, hrevision'⟩ := (h.mem_iff s).mp hs
  have hsame : r.event = s.event := before.eq_of_key_eq hr hs hkey
  have hvalue := congrArg EventRow.value hsame
  have havailable := congrArg EventRow.availableAt hsame
  have hingested := congrArg EventRow.ingestedAt hsame
  cases r
  cases s
  simp_all [RevisionRow.event]

/-- So a read has nothing to choose from. -/
theorem FirstRevisions.latestRevisions_perm (h : FirstRevisions before after)
    (filters : EventRow Key Value → Bool) (asOf : Instant) :
    (visibleEvents before filters asOf).Perm
      ((latestRevisions after (fun r => filters r.event) asOf).map RevisionRow.event) := by
  have hkeys := keys_latestRevisions_nodup after (fun r => filters r.event) asOf
  have hnodup : ((latestRevisions after (fun r => filters r.event) asOf).map
      RevisionRow.event).Nodup := by
    refine List.Nodup.of_map EventRow.key ?_
    rw [List.map_map]
    exact hkeys
  have hnodup' : (visibleEvents before filters asOf).Nodup := before.rows_nodup.filter _
  rw [List.perm_ext_iff_of_nodup hnodup' hnodup]
  intro e
  simp only [visibleEvents, List.mem_filter, List.mem_map, mem_latestRevisions_iff,
    Bool.and_eq_true, decide_eq_true_eq]
  constructor
  · intro he
    obtain ⟨hmem, hfilter, hat⟩ := he
    have hr : e.withRevision 1 ∈ after.rows := (h.mem_iff _).mpr ⟨hmem, rfl⟩
    refine ⟨e.withRevision 1, ⟨⟨hr, hfilter, hat⟩, fun s hs _ _ hkey => ?_⟩, rfl⟩
    rw [h.eq_of_key_eq hs hr hkey]
  · intro he
    obtain ⟨r, ⟨⟨hr, hfilter, hat⟩, _⟩, rfl⟩ := he
    exact ⟨((h.mem_iff r).mp hr).1, hfilter, hat⟩

theorem FirstRevisions.reads (h : FirstRevisions before after)
    (eventTime : EventRow Key Value → Instant) (filters : EventRow Key Value → Bool)
    (asOf : Instant) (order : OrderBy (EventRow Key Value) fun a b => eventTime a ≤ eventTime b)
    (order' : OrderBy (RevisionRow Key Value)
      fun a b => eventTime a.event ≤ eventTime b.event) :
    SameUpToTies eventTime (order.arrange (visibleEvents before filters asOf))
      ((selectLatestRevisionAsOf order' after (fun r => filters r.event) asOf).map
        RevisionRow.event) := by
  refine sameUpToTies_of_perm ?_ (order.sorted _) ?_
  · exact (order.perm _).trans ((h.latestRevisions_perm filters asOf).trans
      ((order'.perm _).symm.map RevisionRow.event))
  · exact List.pairwise_map.mpr (order'.sorted _)

theorem foldl_max_of_forall_eq_one {revisions : List Nat} (hne : revisions ≠ [])
    (h : ∀ n ∈ revisions, n = 1) : revisions.foldl Nat.max 0 = 1 := by
  obtain ⟨n, rest, rfl⟩ := List.exists_cons_of_ne_nil hne
  rw [List.forall_mem_cons] at h
  obtain ⟨rfl, hrest⟩ := h
  show rest.foldl Nat.max 1 = 1
  clear hne
  induction rest with
  | nil => rfl
  | cons n rest ih =>
    rw [List.forall_mem_cons] at hrest
    obtain ⟨rfl, hrest⟩ := hrest
    exact ih hrest

theorem FirstRevisions.nextRevision_eq (h : FirstRevisions before after) {r : EventRow Key Value}
    (hr : r ∈ before.rows) : nextRevision after r.key = 2 := by
  have hmem : r.withRevision 1 ∈ after.rows.filter fun s => s.key = r.key :=
    List.mem_filter.mpr ⟨(h.mem_iff _).mpr ⟨hr, rfl⟩, decide_eq_true rfl⟩
  have hone : ∀ n ∈ (after.rows.filter fun s => s.key = r.key).map RevisionRow.revision,
      n = 1 := by
    intro n hn
    obtain ⟨s, hs, rfl⟩ := List.mem_map.mp hn
    exact ((h.mem_iff s).mp (List.mem_of_mem_filter hs)).2
  have hne := List.ne_nil_of_mem (List.mem_map_of_mem hmem (f := RevisionRow.revision))
  rw [nextRevision, foldl_max_of_forall_eq_one hne hone]

/-- A correction is not yet there, and takes the revision after the first. -/
theorem FirstRevisions.correction (h : FirstRevisions before after) {r : EventRow Key Value}
    (hr : r ∈ before.rows) {input : RevisionInput Key Value} (hkey : input.key = r.key)
    (hat : input.availableAt ≠ r.availableAt) :
    ((appendRevisionRow after input).find input.naturalKey).map RevisionRow.revision =
      some 2 := by
  have hnone : after.find input.naturalKey = none := by
    rw [Table.find_eq_none_iff]
    intro s hs heq
    have hr' : r.withRevision 1 ∈ after.rows := (h.mem_iff _).mpr ⟨hr, rfl⟩
    have hsame := h.eq_of_key_eq hs hr' ((congrArg Prod.fst heq).trans hkey)
    have hinput : s.availableAt = input.availableAt := congrArg Prod.snd heq
    rw [hsame] at hinput
    exact hat hinput.symm
  rw [find_appendRevisionRow, if_pos rfl, hnone]
  show some (nextRevision after input.key) = some 2
  rw [hkey, h.nextRevision_eq hr]

theorem FirstRevisions.preserved (h : FirstRevisions before after) : Preserved before after where
  rows := h.mem_iff
  reads := h.reads
  correction _ hr _ hkey hat := h.correction hr hkey hat

/-- With the default 1 every table is upgraded as it should be. -/
theorem exists_preserved_with_default (table : EventTable Key Value) :
    ∃ after, upgradeTable (some 1) table = .ok after ∧ Preserved table after := by
  obtain ⟨after, hafter, hfirst⟩ := upgradeTable_some table
  exact ⟨after, hafter, hfirst.preserved⟩

/-- Without a default the upgrade of a table goes through when it has no rows, and then
the default makes no difference. -/
theorem upgradeTable_none_eq_ok_iff (table : EventTable Key Value)
    (after : RevisionTable Key Value) :
    upgradeTable none table = .ok after ↔
      table.rows = [] ∧ upgradeTable (some 1) table = .ok after := by
  unfold upgradeTable addRevision
  by_cases hrows : table.rows = []
  · simp [hrows]
  · simp only [hrows, if_false, false_and, iff_false]
    intro h
    obtain ⟨_, hcolumn, _⟩ := Raise.bind_eq_ok_iff.mp h
    cases hcolumn

theorem exists_upgradeTable_none_iff (table : EventTable Key Value) :
    (∃ after, upgradeTable none table = .ok after ∧ Preserved table after) ↔
      table.rows = [] := by
  constructor
  · intro h
    obtain ⟨after, hafter, _⟩ := h
    exact ((upgradeTable_none_eq_ok_iff table after).mp hafter).1
  · intro hrows
    obtain ⟨after, hafter, hpreserved⟩ := exists_preserved_with_default table
    exact ⟨after, (upgradeTable_none_eq_ok_iff table after).mpr ⟨hrows, hafter⟩, hpreserved⟩

end Preserved

/-- The upgrade goes through and all three tables are as they should be. -/
def UpgradePreserves (schema : InitialSchema Disclosure Bar News) : Prop :=
  ∃ upgraded, upgrade schema = .ok upgraded ∧
    Preserved schema.disclosureEvents upgraded.disclosureEvents ∧
    Preserved schema.marketBars upgraded.marketBars ∧
    Preserved schema.newsEvents upgraded.newsEvents

/-- The upgrade preserves what is there exactly when nothing is there. -/
theorem upgradePreserves_iff (schema : InitialSchema Disclosure Bar News) :
    UpgradePreserves schema ↔
      schema.disclosureEvents.rows = [] ∧ schema.marketBars.rows = [] ∧
        schema.newsEvents.rows = [] := by
  rw [← exists_upgradeTable_none_iff, ← exists_upgradeTable_none_iff,
    ← exists_upgradeTable_none_iff]
  constructor
  · intro h
    obtain ⟨upgraded, hupgrade, hdisclosures, hbars, hnews⟩ := h
    obtain ⟨disclosures, hdisclosures', hupgrade⟩ := Raise.bind_eq_ok_iff.mp hupgrade
    obtain ⟨bars, hbars', hupgrade⟩ := Raise.bind_eq_ok_iff.mp hupgrade
    obtain ⟨news, hnews', hupgrade⟩ := Raise.bind_eq_ok_iff.mp hupgrade
    cases hupgrade
    exact ⟨⟨_, hdisclosures', hdisclosures⟩, ⟨_, hbars', hbars⟩, ⟨_, hnews', hnews⟩⟩
  · intro h
    obtain ⟨⟨disclosures, hdisclosures, hpreserved⟩, ⟨bars, hbars, hpreserved'⟩, news, hnews,
      hpreserved''⟩ := h
    refine ⟨⟨disclosures, bars, news⟩, ?_, hpreserved, hpreserved', hpreserved''⟩
    rw [upgrade, hdisclosures, hbars, hnews]
    rfl

/-- One daily bar. -/
def oneBar : InitialSchema DisclosureValue BarValue NewsValue where
  disclosureEvents := Table.empty
  marketBars :=
    { rows :=
        [{ key := { instrumentId := 1, timeframe := "1d", eventTime := 0, source := "toss" }
           availableAt := 1
           ingestedAt := 1
           value :=
             { openPrice := .ofInt 100, highPrice := .ofInt 110, lowPrice := .ofInt 90
               closePrice := .ofInt 105, volume := .ofInt 1000, currency := some "KRW" } }]
      unique := List.nodup_singleton _ }
  newsEvents := Table.empty

theorem oneBar_not_upgraded :
    ¬ ∀ schema : InitialSchema DisclosureValue BarValue NewsValue, UpgradePreserves schema := by
  intro h
  obtain ⟨upgraded, hupgrade, _⟩ := h oneBar
  cases hupgrade

end Db
end QuantPlatform
