/-
The point-in-time guarantees of the revisioned tables.

What an `as_of` read returns is settled once its instant has passed: rows that
become available later, be they new events, corrections or corrections submitted
again, leave it alone.  For bars, whose filters are all on the logical key, a
read is exactly the as-of view of the submitted facts.  For news and disclosures
it is not, because their filters run before the current revision is chosen.
-/
import QuantPlatform.Db.Database

namespace QuantPlatform
namespace Db

open Relational Temporal

section Later

variable {Key Value : Type} [DecidableEq Key]

/-- Two tables hold the same rows as far as a reader at `cutoff` can see. -/
def AgreeUpTo (cutoff : Instant) (table table' : RevisionTable Key Value) : Prop :=
  ∀ r : RevisionRow Key Value, r.availableAt ≤ cutoff → (r ∈ table.rows ↔ r ∈ table'.rows)

theorem agreeUpTo_appendRevisionRows {cutoff : Instant} {rows : List (RevisionInput Key Value)}
    (hlater : ∀ input ∈ rows, cutoff < input.availableAt) (table : RevisionTable Key Value) :
    AgreeUpTo cutoff (appendRevisionRows table rows).1 table :=
  fun _ hr => mem_appendRevisionRows_of_le hlater table hr

theorem AgreeUpTo.select_sameUpToTies {cutoff : Instant} {table table' : RevisionTable Key Value}
    (h : AgreeUpTo cutoff table table') {asOf : Instant} (hasOf : asOf ≤ cutoff)
    {eventTime : RevisionRow Key Value → Instant}
    (order order' : OrderBy (RevisionRow Key Value) fun a b => eventTime a ≤ eventTime b)
    (filters : RevisionRow Key Value → Bool) :
    SameUpToTies eventTime (selectLatestRevisionAsOf order table filters asOf)
      (selectLatestRevisionAsOf order' table' filters asOf) :=
  OrderBy.sameUpToTies_arrange order order'
    (latestRevisions_perm (fun r hr => h r (hr.trans hasOf)) filters)

/-- Whatever order one read gives ties in, the other may too. -/
theorem AgreeUpTo.exists_select_eq {asOf : Instant} {table table' : RevisionTable Key Value}
    (h : AgreeUpTo asOf table table') {eventTime : RevisionRow Key Value → Instant}
    (order : OrderBy (RevisionRow Key Value) fun a b => eventTime a ≤ eventTime b)
    (filters : RevisionRow Key Value → Bool) :
    ∃ order' : OrderBy (RevisionRow Key Value) fun a b => eventTime a ≤ eventTime b,
      selectLatestRevisionAsOf order' table' filters asOf =
        selectLatestRevisionAsOf order table filters asOf :=
  order.exists_arrange_eq ((order.perm _).trans (latestRevisions_perm h filters)) (order.sorted _)

omit [DecidableEq Key] in
theorem AgreeUpTo.symm {cutoff : Instant} {table table' : RevisionTable Key Value}
    (h : AgreeUpTo cutoff table table') : AgreeUpTo cutoff table' table :=
  fun r hr => (h r hr).symm

end Later

/-! ## Stability of every read -/

/-- The revisioned tables of two databases agree for a reader at `cutoff`. -/
structure Database.AgreeUpTo (cutoff : Instant) (db db' : Database) : Prop where
  marketBars : Db.AgreeUpTo cutoff db.marketBars db'.marketBars
  newsEvents : Db.AgreeUpTo cutoff db.newsEvents db'.newsEvents
  disclosureEvents : Db.AgreeUpTo cutoff db.disclosureEvents db'.disclosureEvents

theorem Database.AgreeUpTo.refl (cutoff : Instant) (db : Database) : db.AgreeUpTo cutoff db where
  marketBars _ _ := Iff.rfl
  newsEvents _ _ := Iff.rfl
  disclosureEvents _ _ := Iff.rfl

theorem Database.AgreeUpTo.trans {cutoff : Instant} {a b c : Database}
    (hab : a.AgreeUpTo cutoff b) (hbc : b.AgreeUpTo cutoff c) : a.AgreeUpTo cutoff c where
  marketBars r hr := (hab.marketBars r hr).trans (hbc.marketBars r hr)
  newsEvents r hr := (hab.newsEvents r hr).trans (hbc.newsEvents r hr)
  disclosureEvents r hr := (hab.disclosureEvents r hr).trans (hbc.disclosureEvents r hr)

theorem Database.AgreeUpTo.symm {cutoff : Instant} {a b : Database}
    (h : a.AgreeUpTo cutoff b) : b.AgreeUpTo cutoff a where
  marketBars := Db.AgreeUpTo.symm h.marketBars
  newsEvents := Db.AgreeUpTo.symm h.newsEvents
  disclosureEvents := Db.AgreeUpTo.symm h.disclosureEvents

/-- One call. -/
theorem UpsertCall.agreeUpTo_commit {cutoff : Instant} {call : UpsertCall}
    (hlater : call.AvailableAfter cutoff) (db : Database) :
    (call.commit db).AgreeUpTo cutoff db := by
  cases call with
  | bars rows =>
    exact { Database.AgreeUpTo.refl cutoff db with
      marketBars := agreeUpTo_appendRevisionRows hlater db.marketBars }
  | news rows =>
    exact { Database.AgreeUpTo.refl cutoff db with
      newsEvents := agreeUpTo_appendRevisionRows hlater db.newsEvents }
  | disclosures rows =>
    exact { Database.AgreeUpTo.refl cutoff db with
      disclosureEvents := agreeUpTo_appendRevisionRows hlater db.disclosureEvents }
  | snapshots rows =>
    -- Whether it is refused or not, the statement touches no revisioned table.
    cases h : upsertSnapshots db.orderbookSnapshots rows with
    | error e =>
      rw [UpsertCall.commit_snapshots_error h]
      exact Database.AgreeUpTo.refl cutoff db
    | ok written =>
      rw [UpsertCall.commit_snapshots_ok h]
      exact { Database.AgreeUpTo.refl cutoff db with }

/-- A whole run of calls. -/
theorem Database.agreeUpTo_after {cutoff : Instant} {calls : List UpsertCall}
    (hlater : ∀ call ∈ calls, call.AvailableAfter cutoff) (db : Database) :
    (db.after calls).AgreeUpTo cutoff db := by
  induction calls generalizing db with
  | nil => exact Database.AgreeUpTo.refl cutoff db
  | cons call rest ih =>
    have hrest := ih (fun c hc => hlater c (List.mem_cons_of_mem call hc)) (call.commit db)
    exact hrest.trans (UpsertCall.agreeUpTo_commit (hlater call List.mem_cons_self) db)

/-- Whatever is written later, with whatever `available_at` after the cutoff, a
read at or before the cutoff returns the same rows, up to the order of rows that
share an `event_time`. -/
theorem reads_same_after_later_upserts (db : Database) {calls : List UpsertCall}
    {cutoff asOf : Instant} (hlater : ∀ call ∈ calls, call.AvailableAfter cutoff)
    (hasOf : asOf ≤ cutoff) :
    (∀ (order order' : BarOrder) (instrumentId : Nat) (timeframe : String)
        (start stop : Instant),
      SameUpToTies MarketBarRow.eventTime
        (getBarsAsOf order (db.after calls).marketBars instrumentId timeframe start stop asOf)
        (getBarsAsOf order' db.marketBars instrumentId timeframe start stop asOf)) ∧
    (∀ (order order' : NewsOrder) (start stop : Instant) (symbol : Option String),
      SameUpToTies NewsEventRow.eventTime
        (getNewsAsOf order (db.after calls).newsEvents start stop asOf symbol)
        (getNewsAsOf order' db.newsEvents start stop asOf symbol)) ∧
    (∀ (order order' : DisclosureOrder) (start stop : Instant) (instrumentId : Option Nat),
      SameUpToTies DisclosureEventRow.eventTime
        (getDisclosuresAsOf order (db.after calls).disclosureEvents start stop asOf instrumentId)
        (getDisclosuresAsOf order' db.disclosureEvents start stop asOf instrumentId)) := by
  have hagree := Database.agreeUpTo_after hlater db
  refine ⟨?_, ?_, ?_⟩
  · intro order order' instrumentId timeframe start stop
    exact SameUpToTies.map (fun _ => rfl)
      (hagree.marketBars.select_sameUpToTies hasOf order order' _)
  · intro order order' start stop symbol
    exact SameUpToTies.map (fun _ => rfl)
      (hagree.newsEvents.select_sameUpToTies hasOf order order' _)
  · intro order order' start stop instrumentId
    exact SameUpToTies.map (fun _ => rfl)
      (hagree.disclosureEvents.select_sameUpToTies hasOf order order' _)

/-- A bar and its correction, the one available at 1 and the other at 2. -/
def dailyBar (closePrice : Decimal) (availableAt : Instant) : BarInput :=
  { key := { instrumentId := 1, timeframe := "1d", eventTime := 0, source := "toss" }
    availableAt, ingestedAt := availableAt
    value :=
      { openPrice := Decimal.ofInt 70, highPrice := Decimal.ofInt 72
        lowPrice := Decimal.ofInt 69, closePrice, volume := Decimal.ofInt 1000
        currency := some "KRW" } }

theorem read_same_after_correction :
    let db := Database.empty.after [.bars [dailyBar (Decimal.ofInt 71) 1]]
    SameUpToTies MarketBarRow.eventTime
      (getBarsAsOf (OrderBy.byColumn _)
        (db.after [.bars [dailyBar (Decimal.ofInt 70) 2]]).marketBars 1 "1d" 0 0 1)
      (getBarsAsOf (OrderBy.byColumn _) db.marketBars 1 "1d" 0 0 1) := by
  intro db
  have hlater : ∀ call ∈ [UpsertCall.bars [dailyBar (Decimal.ofInt 70) 2]],
      call.AvailableAfter 1 := by
    simp only [List.forall_mem_singleton, UpsertCall.AvailableAfter]
    decide
  exact (reads_same_after_later_upserts db hlater le_rfl).1 _ _ 1 "1d" 0 0

/-! ## Reads of the current revision -/

section Current

variable {Key Value Row : Type} [DecidableEq Key]

/-- The rows are the current revisions that pass the filters, each of them once. -/
def ReturnsCurrent (ofRow : RevisionRow Key Value → Row) (table : RevisionTable Key Value)
    (filters : RevisionRow Key Value → Bool) (asOf : Instant) (rows : List Row) : Prop :=
  rows.Nodup ∧ ∀ row, row ∈ rows ↔ ∃ r, IsCurrent table asOf r ∧ filters r = true ∧ ofRow r = row

/-- No event passes the filters with a superseded revision only. -/
def NoSupersededMatch (table : RevisionTable Key Value)
    (filters : RevisionRow Key Value → Bool) (asOf : Instant) : Prop :=
  ∀ r ∈ table.rows, r.availableAt ≤ asOf → filters r = true →
    ∀ c, IsCurrent table asOf c → c.key = r.key → filters c = true

theorem select_returnsCurrent_iff {ofRow : RevisionRow Key Value → Row}
    (hofRow : ∀ r s, ofRow r = ofRow s → r.naturalKey = s.naturalKey)
    {eventTime : RevisionRow Key Value → Instant}
    (order : OrderBy (RevisionRow Key Value) fun a b => eventTime a ≤ eventTime b)
    (table : RevisionTable Key Value) (filters : RevisionRow Key Value → Bool)
    (asOf : Instant) :
    ReturnsCurrent ofRow table filters asOf
        ((selectLatestRevisionAsOf order table filters asOf).map ofRow) ↔
      NoSupersededMatch table filters asOf := by
  have hmem : ∀ r, r ∈ selectLatestRevisionAsOf order table filters asOf ↔
      r ∈ latestRevisions table filters asOf := order.mem_arrange_iff _
  -- What is returned is stored, and a stored row is known by its natural key.
  have hrow : ∀ r ∈ latestRevisions table filters asOf, ∀ s ∈ table.rows,
      ofRow r = ofRow s → r = s := by
    intro r hr s hs h
    exact table.eq_of_key_eq ((mem_latestRevisions_iff ..).mp hr).1.1 hs (hofRow r s h)
  have hnodup : ((selectLatestRevisionAsOf order table filters asOf).map ofRow).Nodup := by
    refine List.Nodup.map_on ?_ ?_
    · intro r hr s hs h
      exact hrow r ((hmem r).mp hr) s ((mem_latestRevisions_iff ..).mp ((hmem s).mp hs)).1.1 h
    · exact (order.perm _).nodup_iff.mpr ((keys_latestRevisions_nodup table filters asOf).of_map _)
  unfold ReturnsCurrent NoSupersededMatch
  rw [and_iff_right hnodup, ← latestRevisions_exact_iff]
  constructor
  · intro h r
    constructor
    · intro hr
      obtain ⟨s, hs, hfs, hsr⟩ := (h (ofRow r)).mp (List.mem_map_of_mem ((hmem r).mpr hr))
      rw [hrow r hr s hs.1 hsr.symm]
      exact ⟨hs, hfs⟩
    · intro hr
      exact hr.1.mem_latestRevisions hr.2
  · intro h row
    simp only [List.mem_map, hmem, h, and_assoc]

end Current

theorem NewsEventRow.naturalKey_of_ofRow_eq (r s : RevisionRow EventKey NewsValue)
    (h : ofRow r = ofRow s) : r.naturalKey = s.naturalKey := by
  simp only [ofRow, NewsEventRow.mk.injEq] at h
  obtain ⟨hsource, hid, _, hat, _⟩ := h
  exact Prod.ext (EventKey.ext_iff.mpr ⟨hsource, hid⟩) hat

theorem DisclosureEventRow.naturalKey_of_ofRow_eq (r s : RevisionRow EventKey DisclosureValue)
    (h : ofRow r = ofRow s) : r.naturalKey = s.naturalKey := by
  simp only [ofRow, DisclosureEventRow.mk.injEq] at h
  obtain ⟨hsource, hid, _, _, hat, _⟩ := h
  exact Prod.ext (EventKey.ext_iff.mpr ⟨hsource, hid⟩) hat

/-- The event reads filter any revision, not the current one: they return the
current revisions that pass the filters exactly when no event passes them with a
superseded revision only. -/
theorem event_reads_current_iff (start stop asOf : Instant) :
    (∀ (order : NewsOrder) (news : NewsEvents) (symbol : Option String),
      ReturnsCurrent NewsEventRow.ofRow news (newsFilter start stop symbol) asOf
          (getNewsAsOf order news start stop asOf symbol) ↔
        NoSupersededMatch news (newsFilter start stop symbol) asOf) ∧
    (∀ (order : DisclosureOrder) (disclosures : DisclosureEvents) (instrumentId : Option Nat),
      ReturnsCurrent DisclosureEventRow.ofRow disclosures
          (disclosureFilter start stop instrumentId) asOf
          (getDisclosuresAsOf order disclosures start stop asOf instrumentId) ↔
        NoSupersededMatch disclosures (disclosureFilter start stop instrumentId) asOf) := by
  constructor
  · intro order news symbol
    exact select_returnsCurrent_iff NewsEventRow.naturalKey_of_ofRow_eq order news _ asOf
  · intro order disclosures instrumentId
    exact select_returnsCurrent_iff DisclosureEventRow.naturalKey_of_ofRow_eq order disclosures
      _ asOf

/-- An article about a symbol, and a correction of it that no longer is. -/
def retagging : List (List NewsInput) :=
  let article := fun (symbols : List String) (availableAt : Instant) =>
    { key := { source := "wire", externalId := "n-1" }
      availableAt, ingestedAt := availableAt
      value :=
        { eventTime := 0, headline := "headline", body := none
          relatedSymbols := some symbols, rawPayload := none } : NewsInput }
  [[article ["005930"] 1], [article ["000660"] 2]]

def retaggedNews : NewsEvents := appendBatches Table.empty retagging

theorem retaggedNews_superseded_match :
    ¬ NoSupersededMatch retaggedNews (newsFilter 0 0 (some "005930")) 2 := by
  intro h
  have hlast := h (retaggedNews.rows.head (by decide)) (List.head_mem _) (by decide) (by decide)
    (retaggedNews.rows.getLast (by decide)) ⟨List.getLast_mem _, by decide, by decide⟩ (by decide)
  exact absurd hlast (by decide)

/-- A search for the dropped symbol still returns the superseded article. -/
theorem retagged_news_returned :
    ¬ ∀ (batches : List (List NewsInput)) (order : NewsOrder) (start stop asOf : Instant)
        (symbol : Option String),
      ReturnsCurrent NewsEventRow.ofRow (appendBatches Table.empty batches)
        (newsFilter start stop symbol) asOf
        (getNewsAsOf order (appendBatches Table.empty batches) start stop asOf symbol) := by
  intro h
  have hread := h retagging (OrderBy.byColumn _) 0 0 2 (some "005930")
  exact retaggedNews_superseded_match
    ((select_returnsCurrent_iff NewsEventRow.naturalKey_of_ofRow_eq _ _ _ _).mp hread)

/-! ## Bar reads -/

/-- The table after one `upsert_bars` batch after another. -/
def barsAfter (batches : List (List BarInput)) : MarketBars :=
  batches.foldl (fun bars rows => (upsertBars bars rows).1) Table.empty

/-- What the batches submitted, in order. -/
def submittedBars (batches : List (List BarInput)) : List (Fact BarKey Instant BarValue) :=
  batches.flatten.map RevisionInput.fact

theorem records_barsAfter (batches : List (List BarInput)) :
    Records (barsAfter batches) (submittedBars batches) :=
  records_appendBatches batches

namespace MarketBarRow

def key (row : MarketBarRow) : BarKey :=
  { instrumentId := row.instrumentId, timeframe := row.timeframe
    eventTime := row.eventTime, source := row.source }

def value (row : MarketBarRow) : BarValue :=
  { openPrice := row.openPrice, highPrice := row.highPrice, lowPrice := row.lowPrice
    closePrice := row.closePrice, volume := row.volume, currency := row.currency }

/-- The columns that were submitted: all but `ingested_at` and `revision`. -/
def fact (row : MarketBarRow) : Fact BarKey Instant BarValue :=
  { subject := row.key, time := row.availableAt, value := row.value }

end MarketBarRow

/-- A fact is read when it is what is seen of its bar at `as_of`, and the bar is
in the window. -/
theorem fact_mem_getBarsAsOf_iff (order : BarOrder) (batches : List (List BarInput))
    (instrumentId : Nat) (timeframe : String) (start stop asOf : Instant)
    (f : Fact BarKey Instant BarValue) :
    f ∈ (getBarsAsOf order (barsAfter batches) instrumentId timeframe start stop asOf).map
        MarketBarRow.fact ↔
      barFilter instrumentId timeframe start stop f.subject = true ∧
        SeenAt (submittedBars batches) f.subject asOf f.time f.value := by
  rw [(records_barsAfter batches).seenAt_iff, List.mem_map]
  constructor
  · intro h
    obtain ⟨row, hrow, hf⟩ := h
    obtain ⟨r, hr, hfilter, hofRow⟩ := (mem_getBarsAsOf_iff ..).mp hrow
    subst hf hofRow
    exact ⟨hfilter, r, hr, rfl, rfl, rfl⟩
  · intro h
    obtain ⟨hfilter, r, hr, hkey, htime, hvalue⟩ := h
    refine ⟨MarketBarRow.ofRow r, (mem_getBarsAsOf_iff ..).mpr ⟨r, hr, hkey ▸ hfilter, rfl⟩, ?_⟩
    obtain ⟨subject, time, value⟩ := f
    subst hkey htime hvalue
    rfl

theorem keys_getBarsAsOf_nodup (order : BarOrder) (bars : MarketBars) (instrumentId : Nat)
    (timeframe : String) (start stop asOf : Instant) :
    ((getBarsAsOf order bars instrumentId timeframe start stop asOf).map
      MarketBarRow.key).Nodup := by
  unfold getBarsAsOf selectLatestRevisionAsOf
  rw [List.map_map, show MarketBarRow.key ∘ MarketBarRow.ofRow = RevisionRow.key from rfl]
  exact ((order.perm _).map _).nodup_iff.mpr (keys_latestRevisions_nodup ..)

theorem getBarsAsOf_sorted (order : BarOrder) (bars : MarketBars) (instrumentId : Nat)
    (timeframe : String) (start stop asOf : Instant) :
    (getBarsAsOf order bars instrumentId timeframe start stop asOf).Pairwise
      fun a b => a.eventTime ≤ b.eventTime :=
  List.pairwise_map.mpr (order.sorted _)

/-- A read row is of the instrument and timeframe asked for, and carries what is
seen of its bar. -/
theorem seenAt_of_mem_getBarsAsOf {order : BarOrder} {batches : List (List BarInput)}
    {instrumentId : Nat} {timeframe : String} {start stop asOf : Instant} {row : MarketBarRow}
    (h : row ∈ getBarsAsOf order (barsAfter batches) instrumentId timeframe start stop asOf) :
    barFilter instrumentId timeframe start stop row.key = true ∧
      SeenAt (submittedBars batches) row.key asOf row.availableAt row.value :=
  (fact_mem_getBarsAsOf_iff ..).mp (List.mem_map_of_mem h)

/-- A bar is read as soon as one submission of it is available in time. -/
theorem exists_mem_getBarsAsOf_iff (order : BarOrder) (batches : List (List BarInput))
    (instrumentId : Nat) (timeframe : String) (start stop asOf : Instant) (key : BarKey) :
    (∃ row ∈ getBarsAsOf order (barsAfter batches) instrumentId timeframe start stop asOf,
        row.key = key) ↔
      barFilter instrumentId timeframe start stop key = true ∧
        ∃ input ∈ batches.flatten, input.key = key ∧ input.availableAt ≤ asOf := by
  have hsubmitted : (∃ input ∈ batches.flatten, input.key = key ∧ input.availableAt ≤ asOf) ↔
      ∃ t v, SeenAt (submittedBars batches) key asOf t v := by
    rw [exists_seenAt_iff]
    simp only [submittedBars, List.mem_map, exists_exists_and_eq_and, RevisionInput.fact]
  rw [hsubmitted]
  constructor
  · intro h
    obtain ⟨row, hrow, hkey⟩ := h
    obtain ⟨hfilter, hseen⟩ := seenAt_of_mem_getBarsAsOf hrow
    subst hkey
    exact ⟨hfilter, row.availableAt, row.value, hseen⟩
  · intro h
    obtain ⟨hfilter, t, v, hseen⟩ := h
    obtain ⟨row, hrow, hfact⟩ := List.mem_map.mp
      ((fact_mem_getBarsAsOf_iff order batches instrumentId timeframe start stop asOf
        { subject := key, time := t, value := v }).mpr ⟨hfilter, hseen⟩)
    exact ⟨row, hrow, congrArg Fact.subject hfact⟩

/-- Histories that submit the same facts, without contradiction, read the same. -/
theorem getBarsAsOf_congr {batches batches' : List (List BarInput)}
    (hcoherent : Coherent (submittedBars batches))
    (hsame : ∀ f, f ∈ submittedBars batches ↔ f ∈ submittedBars batches')
    (order order' : BarOrder) (instrumentId : Nat) (timeframe : String)
    (start stop asOf : Instant) :
    SameUpToTies (fun f : Fact BarKey Instant BarValue => f.subject.eventTime)
      ((getBarsAsOf order (barsAfter batches) instrumentId timeframe start stop asOf).map
        MarketBarRow.fact)
      ((getBarsAsOf order' (barsAfter batches') instrumentId timeframe start stop asOf).map
        MarketBarRow.fact) := by
  have hnodup : ∀ (o : BarOrder) (b : List (List BarInput)),
      ((getBarsAsOf o (barsAfter b) instrumentId timeframe start stop asOf).map
        MarketBarRow.fact).Nodup := by
    intro o b
    apply List.Nodup.of_map Fact.subject
    rw [List.map_map]
    exact keys_getBarsAsOf_nodup o (barsAfter b) instrumentId timeframe start stop asOf
  apply sameUpToTies_of_perm
  · rw [List.perm_ext_iff_of_nodup (hnodup order batches) (hnodup order' batches')]
    intro f
    rw [fact_mem_getBarsAsOf_iff, fact_mem_getBarsAsOf_iff, seenAt_congr hcoherent hsame]
  · exact List.pairwise_map.mpr (getBarsAsOf_sorted ..)
  · exact List.pairwise_map.mpr (getBarsAsOf_sorted ..)

/-- A bar read is the as-of view of the submitted facts: one row for each bar
submitted in time, in `event_time` order, with the values that arrived first
under its latest `available_at`.  Revision numbers, batching, repetition and
arrival order have no say in it. -/
theorem bar_reads_are_as_of_views :
    (∀ (batches : List (List BarInput)) (order : BarOrder) (instrumentId : Nat)
        (timeframe : String) (start stop asOf : Instant),
      let rows := getBarsAsOf order (barsAfter batches) instrumentId timeframe start stop asOf
      (rows.map fun row => (row.eventTime, row.source)).Nodup ∧
      (rows.Pairwise fun a b => a.eventTime ≤ b.eventTime) ∧
      (∀ eventTime source,
        (∃ row ∈ rows, row.eventTime = eventTime ∧ row.source = source) ↔
          (start ≤ eventTime ∧ eventTime ≤ stop) ∧
            ∃ input ∈ batches.flatten,
              input.key = { instrumentId, timeframe, eventTime, source } ∧
                input.availableAt ≤ asOf) ∧
      ∀ row ∈ rows, row.instrumentId = instrumentId ∧ row.timeframe = timeframe ∧
        SeenAt (submittedBars batches) row.key asOf row.availableAt row.value) ∧
    (∀ batches batches' : List (List BarInput),
      Coherent (submittedBars batches) →
      (∀ f, f ∈ submittedBars batches ↔ f ∈ submittedBars batches') →
      ∀ (order order' : BarOrder) (instrumentId : Nat) (timeframe : String)
        (start stop asOf : Instant),
      SameUpToTies (fun f : Fact BarKey Instant BarValue => f.subject.eventTime)
        ((getBarsAsOf order (barsAfter batches) instrumentId timeframe start stop asOf).map
          MarketBarRow.fact)
        ((getBarsAsOf order' (barsAfter batches') instrumentId timeframe start stop asOf).map
          MarketBarRow.fact)) := by
  refine ⟨?_, fun _ _ => getBarsAsOf_congr⟩
  intro batches order instrumentId timeframe start stop asOf rows
  have hkeys : ∀ row ∈ rows, row.instrumentId = instrumentId ∧ row.timeframe = timeframe := by
    intro row hrow
    have hfilter := (barFilter_iff ..).mp (seenAt_of_mem_getBarsAsOf hrow).1
    exact ⟨hfilter.1, hfilter.2.1⟩
  refine ⟨?_, getBarsAsOf_sorted .., ?_, ?_⟩
  · -- Within one instrument and timeframe, `event_time` and `source` make up the key.
    refine List.Nodup.map_on ?_ ((keys_getBarsAsOf_nodup ..).of_map _)
    intro a ha b hb hab
    refine List.inj_on_of_nodup_map (keys_getBarsAsOf_nodup ..) ha hb ?_
    obtain ⟨hai, hat⟩ := hkeys a ha
    obtain ⟨hbi, hbt⟩ := hkeys b hb
    simp only [Prod.mk.injEq] at hab
    simp only [MarketBarRow.key, hai, hat, hbi, hbt, hab.1, hab.2]
  · intro eventTime source
    have hread := exists_mem_getBarsAsOf_iff order batches instrumentId timeframe start stop asOf
      { instrumentId, timeframe, eventTime, source }
    rw [barFilter_iff, and_iff_right rfl, and_iff_right rfl] at hread
    rw [← hread]
    constructor
    · intro h
      obtain ⟨row, hrow, htime, hsource⟩ := h
      obtain ⟨hi, ht⟩ := hkeys row hrow
      exact ⟨row, hrow, by simp only [MarketBarRow.key, hi, ht, htime, hsource]⟩
    · intro h
      obtain ⟨row, hrow, hkey⟩ := h
      exact ⟨row, hrow, congrArg BarKey.eventTime hkey, congrArg BarKey.source hkey⟩
  · intro row hrow
    exact ⟨(hkeys row hrow).1, (hkeys row hrow).2, (seenAt_of_mem_getBarsAsOf hrow).2⟩

/-- The bar may arrive after its correction, which may arrive twice. -/
theorem dailyBar_late_reads_alike :
    let first := dailyBar (Decimal.ofInt 71) 1
    let correction := dailyBar (Decimal.ofInt 70) 2
    let inOrder := [[first], [correction]]
    let late := [[correction], [first, correction]]
    SameUpToTies (fun f : Fact BarKey Instant BarValue => f.subject.eventTime)
      ((getBarsAsOf (OrderBy.byColumn _) (barsAfter inOrder) 1 "1d" 0 9 5).map MarketBarRow.fact)
      ((getBarsAsOf (OrderBy.byColumn _) (barsAfter late) 1 "1d" 0 9 5).map MarketBarRow.fact) := by
  intro first correction inOrder late
  have hcoherent : Coherent (submittedBars inOrder) := by
    unfold Coherent
    decide
  have hsame : ∀ f, f ∈ submittedBars inOrder ↔ f ∈ submittedBars late := by
    intro f
    simp only [submittedBars, inOrder, late, List.flatten_cons, List.flatten_nil, List.map_append,
      List.map_cons, List.map_nil, List.mem_append, List.mem_cons, List.not_mem_nil, or_false]
    constructor
    · exact Or.inr
    · intro h
      rcases h with h | h
      · exact Or.inr h
      · exact h
  exact bar_reads_are_as_of_views.2 inOrder late hcoherent hsame _ _ 1 "1d" 0 9 5

end Db
end QuantPlatform
