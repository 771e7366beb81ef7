/-
Replaying a scan at an instant that has passed.

A scan reads bars, news, disclosures and the orderbook.  The first three cannot
be reached by rows that became available later, the orderbook can: a later
observation of a snapshot rewrites it in place and keeps its `available_at`.

Which candidate a scan produces depends on how ties are ordered, so a replay is
compared by the set of candidates it may produce.  `replayed_scan_iff` says that
the set is the same, after every prefix of a run of later calls and for every
configuration, exactly when no call rewrites a latest snapshot.
-/
import QuantPlatform.Db.LatestSnapshot
import QuantPlatform.Scanners.Pipeline

namespace QuantPlatform
namespace Scanners

open Db Relational

namespace ScannerPipeline

/-- What a scan of the instrument may produce. -/
def outcomes (pipeline : ScannerPipeline) (db : Database) (instrument : InstrumentRow)
    (asOf : Instant) : Set (Except Exn Candidate) :=
  {outcome | ∃ engine, pipeline.scanInstrument engine db instrument asOf = outcome}

/-- What a scan of the market may produce. -/
def scanOutcomes (pipeline : ScannerPipeline) (db : Database) (asOf : Instant) :
    Set (Except Exn (List Candidate)) :=
  {outcome | ∃ market engines, pipeline.scan market engines db asOf = outcome}

section SameView

variable {asOf : Instant} {db db' : Database} (pipeline : ScannerPipeline)

theorem exists_readBars_eq (h : db.AgreeUpTo asOf db') (engine : Engine)
    (instrument : InstrumentRow) :
    ∃ bars : BarOrder, ∀ e : Engine, e.bars = bars →
      pipeline.readBars e db' instrument asOf = pipeline.readBars engine db instrument asOf := by
  unfold readBars
  cases Instant.minusDays asOf pipeline.config.lookbackDays with
  | error e => exact ⟨engine.bars, fun _ _ => rfl⟩
  | ok start =>
    obtain ⟨bars, hbars⟩ := h.marketBars.exists_select_eq engine.bars
      fun r => barFilter instrument.id pipeline.config.timeframe start asOf r.key
    refine ⟨bars, fun e he => ?_⟩
    show Except.ok _ = Except.ok _
    simp only [getBarsAsOf, he, hbars]

theorem exists_readEventInput_eq (h : db.AgreeUpTo asOf db')
    (hlatest : SameLatest asOf db.orderbookSnapshots db'.orderbookSnapshots) (engine : Engine)
    (instrument : InstrumentRow) :
    ∃ (news : NewsOrder) (disclosures : DisclosureOrder) (snapshots : SnapshotOrder),
      ∀ e : Engine, e.news = news → e.disclosures = disclosures → e.snapshots = snapshots →
        ∀ bars, pipeline.readEventInput e db' instrument asOf bars =
          pipeline.readEventInput engine db instrument asOf bars := by
  unfold readEventInput
  cases Instant.minusDays asOf pipeline.config.newsLookbackDays with
  | error e => exact ⟨engine.news, engine.disclosures, engine.snapshots, fun _ _ _ _ _ => rfl⟩
  | ok newsStart =>
    cases Instant.minusDays asOf pipeline.config.disclosureLookbackDays with
    | error e => exact ⟨engine.news, engine.disclosures, engine.snapshots, fun _ _ _ _ _ => rfl⟩
    | ok disclosureStart =>
      obtain ⟨news, hnews⟩ := h.newsEvents.exists_select_eq engine.news
        (newsFilter newsStart asOf (some instrument.symbol))
      obtain ⟨disclosures, hdisclosures⟩ :=
        h.disclosureEvents.exists_select_eq engine.disclosures
          (disclosureFilter disclosureStart asOf (some instrument.id))
      obtain ⟨snapshots, hsnapshots⟩ :=
        hlatest.exists_getLatestAsOf_eq engine.snapshots instrument.id
      refine ⟨news, disclosures, snapshots, fun e hn hd hs bars => ?_⟩
      show Except.ok _ = Except.ok _
      simp only [getNewsAsOf, getDisclosuresAsOf, hn, hd, hs, hnews, hdisclosures, hsnapshots]

/-- Whatever a scan may do with one database it may do with the other. -/
theorem exists_scanInstrument_eq (h : db.AgreeUpTo asOf db')
    (hlatest : SameLatest asOf db.orderbookSnapshots db'.orderbookSnapshots) (engine : Engine)
    (instrument : InstrumentRow) :
    ∃ engine', pipeline.scanInstrument engine' db' instrument asOf =
      pipeline.scanInstrument engine db instrument asOf := by
  obtain ⟨bars, hbars⟩ := pipeline.exists_readBars_eq h engine instrument
  obtain ⟨news, disclosures, snapshots, hinput⟩ :=
    pipeline.exists_readEventInput_eq h hlatest engine instrument
  let engine' : Engine := { bars, news, disclosures, snapshots }
  refine ⟨engine', ?_⟩
  unfold scanInstrument
  simp only [hbars engine' rfl, hinput engine' rfl rfl rfl]

theorem outcomes_subset (h : db.AgreeUpTo asOf db')
    (hlatest : SameLatest asOf db.orderbookSnapshots db'.orderbookSnapshots)
    (instrument : InstrumentRow) :
    pipeline.outcomes db instrument asOf ⊆ pipeline.outcomes db' instrument asOf := by
  intro outcome houtcome
  obtain ⟨engine, hengine⟩ := houtcome
  obtain ⟨engine', hengine'⟩ := pipeline.exists_scanInstrument_eq h hlatest engine instrument
  exact ⟨engine', hengine'.trans hengine⟩

theorem scanOutcomes_subset (h : db.AgreeUpTo asOf db')
    (hlatest : SameLatest asOf db.orderbookSnapshots db'.orderbookSnapshots)
    (hinstruments : db'.instruments = db.instruments) :
    pipeline.scanOutcomes db asOf ⊆ pipeline.scanOutcomes db' asOf := by
  intro outcome houtcome
  obtain ⟨market, engines, hscan⟩ := houtcome
  choose engines' hengines' using fun instrument =>
    pipeline.exists_scanInstrument_eq h hlatest (engines instrument) instrument
  refine ⟨market, engines', ?_⟩
  unfold scan at hscan ⊢
  simp only [hinstruments, hengines']
  exact hscan

end SameView

/-! ## Telling databases apart -/

/-- The detection of a plugin that looks for one orderbook. -/
noncomputable def probeDetection (s : OrderBookSnapshotRow)
    (orderbook : Option OrderBookSnapshotRow) : EventDetection :=
  { eventName := "probe"
    detected := @decide (orderbook = some s) (Classical.propDecidable _)
    observedValue := .none, threshold := .none, market := none, reason := none }

theorem detected_probeDetection {s : OrderBookSnapshotRow}
    {orderbook : Option OrderBookSnapshotRow} :
    (probeDetection s orderbook).detected = true ↔ orderbook = some s :=
  @decide_eq_true_iff _ (Classical.propDecidable _)

/-- A pipeline with that plugin and nothing else. -/
noncomputable def probe (s : OrderBookSnapshotRow) : ScannerPipeline where
  config :=
    { timeframe := "1d", lookbackDays := 0, newsLookbackDays := 0, disclosureLookbackDays := 0 }
  universeFilters := []
  eventScanners :=
    [{ name := "probe", market := none
       detect := fun input => .ok (probeDetection s input.orderbook) }]
  strategyRuleSet := none
  dataSource := "toss_openapi"

theorem minusDays_zero {asOf : Instant} (hmin : Instant.datetimeMin ≤ asOf)
    (hmax : asOf ≤ Instant.datetimeMax) : Instant.minusDays asOf 0 = .ok asOf := by
  unfold Instant.minusDays
  simp [not_lt.mpr hmin, not_lt.mpr hmax]

theorem scanInstrument_probe {asOf : Instant} (hmin : Instant.datetimeMin ≤ asOf)
    (hmax : asOf ≤ Instant.datetimeMax) (s : OrderBookSnapshotRow) (engine : Engine)
    (db : Database) (instrument : InstrumentRow) :
    let detection := probeDetection s
      (getLatestAsOf engine.snapshots db.orderbookSnapshots instrument.id asOf)
    (probe s).scanInstrument engine db instrument asOf =
      .ok ((probe s).candidate instrument asOf [] [detection] none detection.detected) := by
  intro detection
  have hbars : ∃ bars, (probe s).readBars engine db instrument asOf = .ok bars := by
    unfold readBars
    rw [show (probe s).config.lookbackDays = 0 from rfl, minusDays_zero hmin hmax]
    exact ⟨_, rfl⟩
  have hinput : ∀ bars, ∃ input,
      (probe s).readEventInput engine db instrument asOf bars = .ok input ∧
        probeDetection s input.orderbook = detection := by
    intro bars
    unfold readEventInput
    rw [show (probe s).config.newsLookbackDays = 0 from rfl,
      show (probe s).config.disclosureLookbackDays = 0 from rfl, minusDays_zero hmin hmax]
    exact ⟨_, rfl, rfl⟩
  obtain ⟨bars, hbars⟩ := hbars
  obtain ⟨input, hinput, hdetection⟩ := hinput bars
  unfold scanInstrument
  rw [hbars]
  show (do
    let eventInput ← (probe s).readEventInput engine db instrument asOf bars
    _) = _
  rw [hinput, ← hdetection]
  show (if (probeDetection s input.orderbook).detected || false = true then _ else _) = _
  cases h : (probeDetection s input.orderbook).detected with
  | true => rfl
  | false => rfl

/-- The probe can tell a latest snapshot from any other. -/
theorem isLatest_iff_probe {asOf : Instant} (hmin : Instant.datetimeMin ≤ asOf)
    (hmax : asOf ≤ Instant.datetimeMax) (s : OrderBookSnapshotRow) (db : Database)
    {instrument : InstrumentRow} (hid : instrument.id = s.instrumentId) :
    IsLatestSnapshot db.orderbookSnapshots asOf s ↔
      ∃ c, Except.ok c ∈ (probe s).outcomes db instrument asOf ∧ c.qualified = true := by
  constructor
  · intro h
    obtain ⟨snapshots, hsnapshots⟩ := exists_getLatestAsOf Engine.stable.snapshots h
    let engine : Engine := { Engine.stable with snapshots }
    refine ⟨_, ⟨engine, scanInstrument_probe hmin hmax s engine db instrument⟩, ?_⟩
    exact detected_probeDetection.mpr (hid ▸ hsnapshots)
  · intro h
    obtain ⟨c, ⟨engine, hscan⟩, hqualified⟩ := h
    rw [scanInstrument_probe hmin hmax s engine db instrument] at hscan
    rw [← Except.ok.inj hscan] at hqualified
    exact (getLatestAsOf_isLatest (detected_probeDetection.mp hqualified)).2

theorem instruments_commit (db : Database) (call : UpsertCall) :
    (call.commit db).instruments = db.instruments := by
  cases call with
  | bars rows => rfl
  | news rows => rfl
  | disclosures rows => rfl
  | snapshots rows =>
    cases h : upsertSnapshots db.orderbookSnapshots rows with
    | error e => rw [UpsertCall.commit_snapshots_error h]
    | ok written => rw [UpsertCall.commit_snapshots_ok h]

theorem instruments_after (db : Database) (calls : List UpsertCall) :
    (db.after calls).instruments = db.instruments := by
  induction calls generalizing db with
  | nil => rfl
  | cons call rest ih => exact (ih (call.commit db)).trans (instruments_commit db call)

/-- Every snapshot visible at `as_of` is of an instrument that exists. -/
def SnapshotsReferInstruments (db : Database) (asOf : Instant) : Prop :=
  ∀ s ∈ db.orderbookSnapshots.rows, s.availableAt ≤ asOf →
    ∃ instrument ∈ db.instruments.table.rows, instrument.id = s.instrumentId

theorem SnapshotsReferInstruments.commit {db : Database} {asOf : Instant}
    (h : SnapshotsReferInstruments db asOf) {call : UpsertCall}
    (hlater : call.AvailableAfter asOf) : SnapshotsReferInstruments (call.commit db) asOf := by
  intro s' hs' hat
  obtain ⟨s, hs, hkey, hsat⟩ := exists_mem_of_mem_commit hlater hs' hat
  obtain ⟨instrument, hinstrument, hid⟩ := h s hs (hsat.le.trans hat)
  rw [instruments_commit]
  exact ⟨instrument, hinstrument, hid.trans (congrArg SnapshotKey.instrumentId hkey)⟩

theorem SnapshotsReferInstruments.of_isLatest {db : Database} {asOf : Instant}
    (h : SnapshotsReferInstruments db asOf) {s : OrderBookSnapshotRow}
    (hs : IsLatestSnapshot db.orderbookSnapshots asOf s) :
    ∃ instrument ∈ db.instruments.table.rows, instrument.id = s.instrumentId := by
  obtain ⟨hmem, _, hat⟩ := (mem_visibleSnapshots_iff ..).mp hs.1
  exact h s hmem hat

/-- One later call: if no configuration tells the two databases apart, the latest
snapshots were kept. -/
theorem keepsLatest_of_outcomes_eq {db : Database} {asOf : Instant}
    (hmin : Instant.datetimeMin ≤ asOf) (hmax : asOf ≤ Instant.datetimeMax)
    (hrefer : SnapshotsReferInstruments db asOf) {call : UpsertCall}
    (hlater : call.AvailableAfter asOf)
    (hsame : ∀ pipeline : ScannerPipeline, ∀ instrument ∈ db.instruments.table.rows,
      pipeline.outcomes (call.commit db) instrument asOf =
        pipeline.outcomes db instrument asOf) :
    call.KeepsLatest asOf db := by
  rw [← sameLatest_commit_iff hlater]
  intro s
  by_cases hid : ∃ instrument ∈ db.instruments.table.rows, instrument.id = s.instrumentId
  · obtain ⟨instrument, hinstrument, hid⟩ := hid
    rw [isLatest_iff_probe hmin hmax s db hid,
      isLatest_iff_probe hmin hmax s (call.commit db) hid, hsame (probe s) instrument hinstrument]
  · constructor
    · intro hs
      exact absurd (hrefer.of_isLatest hs) hid
    · intro hs
      have hexists := (hrefer.commit hlater).of_isLatest hs
      rw [instruments_commit] at hexists
      exact absurd hexists hid

/-- A run of later calls. -/
theorem keepsLatest_of_outcomes_eq_along {db : Database} {asOf : Instant}
    (hmin : Instant.datetimeMin ≤ asOf) (hmax : asOf ≤ Instant.datetimeMax)
    (hrefer : SnapshotsReferInstruments db asOf) {calls : List UpsertCall}
    (hlater : ∀ call ∈ calls, call.AvailableAfter asOf)
    (hsame : ∀ (n : Nat) (pipeline : ScannerPipeline),
      ∀ instrument ∈ db.instruments.table.rows,
        pipeline.outcomes (db.after (calls.take n)) instrument asOf =
          pipeline.outcomes db instrument asOf) :
    db.KeepsLatest asOf calls := by
  induction calls generalizing db with
  | nil => trivial
  | cons call rest ih =>
    have hcall := hlater call List.mem_cons_self
    have hfirst := hsame 1
    refine ⟨keepsLatest_of_outcomes_eq hmin hmax hrefer hcall hfirst, ?_⟩
    apply ih (hrefer.commit hcall) fun c hc => hlater c (List.mem_cons_of_mem call hc)
    intro n pipeline instrument hinstrument
    rw [instruments_commit] at hinstrument
    exact (hsame (n + 1) pipeline instrument hinstrument).trans
      (hfirst pipeline instrument hinstrument).symm

/-- Later calls leave every replay alone, whatever the pipeline, as long as none
of them rewrites a latest snapshot; and once one does, some pipeline shows it. -/
theorem replayed_scan_iff (db : Database) (calls : List UpsertCall) (asOf : Instant)
    (hlater : ∀ call ∈ calls, call.AvailableAfter asOf) :
    (db.KeepsLatest asOf calls →
      ∀ (n : Nat) (pipeline : ScannerPipeline),
        (∀ instrument : InstrumentRow,
          pipeline.outcomes (db.after (calls.take n)) instrument asOf =
            pipeline.outcomes db instrument asOf) ∧
        pipeline.scanOutcomes (db.after (calls.take n)) asOf = pipeline.scanOutcomes db asOf) ∧
    (Instant.datetimeMin ≤ asOf → asOf ≤ Instant.datetimeMax →
      SnapshotsReferInstruments db asOf →
      (∀ (n : Nat) (pipeline : ScannerPipeline), ∀ instrument ∈ db.instruments.table.rows,
        pipeline.outcomes (db.after (calls.take n)) instrument asOf =
          pipeline.outcomes db instrument asOf) →
      db.KeepsLatest asOf calls) := by
  constructor
  · intro hkeeps n pipeline
    have hinitial : ∀ call ∈ calls.take n, call.AvailableAfter asOf :=
      fun call hcall => hlater call (List.mem_of_mem_take hcall)
    have hagree := Database.agreeUpTo_after hinitial db
    have hlatest := (hkeeps.take n).sameLatest hinitial
    have hlatest' := fun s => (hlatest s).symm
    refine ⟨fun instrument => ?_, ?_⟩
    · exact Set.Subset.antisymm (pipeline.outcomes_subset hagree hlatest' instrument)
        (pipeline.outcomes_subset hagree.symm hlatest instrument)
    · have hinstruments := instruments_after db (calls.take n)
      exact Set.Subset.antisymm (pipeline.scanOutcomes_subset hagree hlatest' hinstruments.symm)
        (pipeline.scanOutcomes_subset hagree.symm hlatest hinstruments)
  · intro hmin hmax hrefer hsame
    exact keepsLatest_of_outcomes_eq_along hmin hmax hrefer hlater hsame

/-- A snapshot of the orderbook at 0, as observed first or again. -/
def snapshotAt (availableAt : Instant) (asks : List Level) : OrderBookSnapshotRow :=
  { instrumentId := 1, eventTime := 0, availableAt, ingestedAt := availableAt
    currency := some "KRW", asks, bids := [], source := "toss_openapi" }

/-- One instrument with one snapshot, available from 1 on. -/
def observedOnce : Database :=
  { Database.empty with
    instruments :=
      (Instruments.empty.getOrCreate "KRX" "005930" "toss_openapi" none none none).1
    orderbookSnapshots := Table.empty.insertAll updateSnapshot [snapshotAt 1 []] }

/-- The next snapshot of the instrument, available from 2 on. -/
def observedNext : List UpsertCall := [.snapshots [{ snapshotAt 2 [] with eventTime := 1 }]]

/-- One plugin, which detects an orderbook with asks. -/
def asksPresent : ScannerPipeline where
  config :=
    { timeframe := "1d", lookbackDays := 1, newsLookbackDays := 1, disclosureLookbackDays := 1 }
  universeFilters := []
  eventScanners :=
    [{ name := "asks_present", market := none
       detect := fun input => .ok
        { eventName := "asks_present", detected := input.orderbook.any fun s => !s.asks.isEmpty
          observedValue := .none, threshold := .none, market := none, reason := none } }]
  strategyRuleSet := none
  dataSource := "toss_openapi"

theorem observedNext_keeps_replay :
    asksPresent.scanOutcomes (observedOnce.after (observedNext.take 1)) 1 =
      asksPresent.scanOutcomes observedOnce 1 := by
  have hlater : ∀ call ∈ observedNext, call.AvailableAfter 1 := by
    simp only [observedNext, List.forall_mem_singleton, UpsertCall.AvailableAfter]
    decide
  refine ((replayed_scan_iff observedOnce observedNext 1 hlater).1 ?_ 1 asksPresent).2
  refine ⟨fun _ row hrow s hs hkey => ?_, trivial⟩
  have hstored := ((mem_visibleSnapshots_iff ..).mp hs.1).1
  rw [List.mem_singleton.mp hrow, List.mem_singleton.mp hstored] at hkey
  exact absurd hkey (by decide)

def observedAgain : List UpsertCall := [.snapshots [snapshotAt 2 [[("volume", .int 100)]]]]

theorem observedAgain_after : ∀ call ∈ observedAgain, call.AvailableAfter 1 := by
  simp only [observedAgain, List.forall_mem_singleton, UpsertCall.AvailableAfter]
  decide

/-- Observing the snapshot again, with other levels, changes a replay. -/
theorem observedAgain_changes_replay :
    ¬ ∀ (db : Database) (calls : List UpsertCall) (asOf : Instant),
      (∀ call ∈ calls, call.AvailableAfter asOf) →
      ∀ pipeline : ScannerPipeline, ∀ instrument ∈ db.instruments.table.rows,
        pipeline.outcomes (db.after calls) instrument asOf =
          pipeline.outcomes db instrument asOf := by
  intro h
  have hrefer : SnapshotsReferInstruments observedOnce 1 := by
    intro s hs _
    rw [List.mem_singleton.mp hs]
    exact ⟨_, List.mem_cons_self, rfl⟩
  have hkeeps := keepsLatest_of_outcomes_eq (by decide) (by decide) hrefer
    (observedAgain_after _ List.mem_cons_self) (h observedOnce observedAgain 1 observedAgain_after)
  have hlatest : IsLatestSnapshot observedOnce.orderbookSnapshots 1 (snapshotAt 1 []) := by
    refine ⟨(mem_visibleSnapshots_iff ..).mpr ⟨List.mem_cons_self, rfl, le_rfl⟩, fun u hu => ?_⟩
    rw [List.mem_singleton.mp ((mem_visibleSnapshots_iff ..).mp hu).1]
  have hasks := (hkeeps (List.nodup_singleton _) _ List.mem_cons_self _ hlatest rfl).2.1
  cases hasks

end ScannerPipeline

end Scanners
end QuantPlatform
