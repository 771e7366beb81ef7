import QuantPlatform.Relational.Upserts
import QuantPlatform.Scanners.Totality

namespace QuantPlatform
namespace Scanners

open Db Relational

section Revisions

variable {Key Value : Type}

/-- The inputs are of another kind, and none of them is a stored row of the kind again. -/
def SparesKind (kind : Key → Value → Bool) (table : RevisionTable Key Value)
    (rows : List (RevisionInput Key Value)) : Prop :=
  ∀ input ∈ rows, kind input.key input.value = false ∧
    ∀ r ∈ table.rows, kind r.key r.value = true → r.naturalKey ≠ input.naturalKey

theorem SparesKind.of_filter {kind : Key → Value → Bool} {table table' : RevisionTable Key Value}
    {rows : List (RevisionInput Key Value)} (h : SparesKind kind table rows)
    (hsame : (table'.rows.filter fun r => kind r.key r.value) =
      table.rows.filter fun r => kind r.key r.value) : SparesKind kind table' rows := by
  intro input hinput
  obtain ⟨hkind, hagain⟩ := h input hinput
  refine ⟨hkind, fun r hr htrue => ?_⟩
  have hmem : r ∈ table'.rows.filter fun r => kind r.key r.value :=
    List.mem_filter.mpr ⟨hr, htrue⟩
  rw [hsame] at hmem
  exact hagain r (List.mem_filter.mp hmem).1 htrue

variable [DecidableEq Key]

/-- The rows of the kind are kept. -/
theorem SparesKind.filter_rows {kind : Key → Value → Bool} {rows : List (RevisionInput Key Value)}
    {table : RevisionTable Key Value} (h : SparesKind kind table rows) :
    ((appendRevisionRows table rows).1.rows.filter fun r => kind r.key r.value) =
      table.rows.filter fun r => kind r.key r.value := by
  unfold appendRevisionRows
  induction rows generalizing table with
  | nil => rfl
  | cons input rest ih =>
    obtain ⟨hkind, hagain⟩ := h input List.mem_cons_self
    have hfirst : ((appendRevisionRow table input).rows.filter fun r => kind r.key r.value) =
        table.rows.filter fun r => kind r.key r.value := by
      refine Table.filter_insert hkind fun r hr hkey => ?_
      have hnot : kind r.key r.value = false :=
        Bool.eq_false_iff.mpr fun htrue => hagain r hr htrue hkey
      exact ⟨hnot, hnot⟩
    have hrest : SparesKind kind table rest :=
      fun input' hinput' => h input' (List.mem_cons_of_mem input hinput')
    exact (ih (hrest.of_filter hfirst)).trans hfirst

/-- A read of rows of a kind depends on these rows only. -/
theorem selectLatestRevisionAsOf_of_filter {kind : Key → Value → Bool}
    {table table' : RevisionTable Key Value}
    (h : (table'.rows.filter fun r => kind r.key r.value) =
      table.rows.filter fun r => kind r.key r.value)
    {eventTime : RevisionRow Key Value → Instant}
    (order : OrderBy (RevisionRow Key Value) fun a b => eventTime a ≤ eventTime b)
    {filters : RevisionRow Key Value → Bool}
    (hfilters : ∀ r, filters r = true → kind r.key r.value = true) (asOf : Instant) :
    selectLatestRevisionAsOf order table' filters asOf =
      selectLatestRevisionAsOf order table filters asOf := by
  have hvisible : ∀ t : RevisionTable Key Value, visibleRows t filters asOf =
      (t.rows.filter fun r => kind r.key r.value).filter fun r =>
        filters r && decide (r.availableAt ≤ asOf) := by
    intro t
    rw [List.filter_filter]
    refine List.filter_congr fun r _ => ?_
    cases hr : filters r with
    | true => rw [hfilters r hr, Bool.and_true]
    | false => rfl
  unfold selectLatestRevisionAsOf latestRevisions
  rw [hvisible, hvisible, h]

end Revisions

/-! ## The rows about an instrument -/

def barKind (instrument : InstrumentRow) (key : BarKey) (_ : BarValue) : Bool :=
  decide (key.instrumentId = instrument.id)

def newsKind (instrument : InstrumentRow) (_ : EventKey) (value : NewsValue) : Bool :=
  containsSymbol value.relatedSymbols instrument.symbol

def disclosureKind (instrument : InstrumentRow) (_ : EventKey) (value : DisclosureValue) : Bool :=
  decide (value.instrumentId = some instrument.id)

def snapshotKind (instrument : InstrumentRow) (key : SnapshotKey) : Bool :=
  decide (key.instrumentId = instrument.id)

/-- The call writes nothing about the instrument. -/
def Spares (db : Database) (instrument : InstrumentRow) :
    UpsertCall → Prop
  | .bars rows => SparesKind (barKind instrument) db.marketBars rows
  | .news rows => SparesKind (newsKind instrument) db.newsEvents rows
  | .disclosures rows => SparesKind (disclosureKind instrument) db.disclosureEvents rows
  | .snapshots rows => ∀ row ∈ rows, snapshotKind instrument row.naturalKey = false

/-- The databases hold the same about the instrument, in the same order. -/
structure SameAbout (instrument : InstrumentRow) (db db' : Database) : Prop where
  instruments : db'.instruments = db.instruments
  bars : (db'.marketBars.rows.filter fun r => barKind instrument r.key r.value) =
    db.marketBars.rows.filter fun r => barKind instrument r.key r.value
  news : (db'.newsEvents.rows.filter fun r => newsKind instrument r.key r.value) =
    db.newsEvents.rows.filter fun r => newsKind instrument r.key r.value
  disclosures : (db'.disclosureEvents.rows.filter fun r =>
      disclosureKind instrument r.key r.value) =
    db.disclosureEvents.rows.filter fun r => disclosureKind instrument r.key r.value
  snapshots : (db'.orderbookSnapshots.rows.filter fun r =>
      snapshotKind instrument r.naturalKey) =
    db.orderbookSnapshots.rows.filter fun r => snapshotKind instrument r.naturalKey

section Calls

variable {instrument : InstrumentRow} {db : Database}

theorem SameAbout.refl (instrument : InstrumentRow) (db : Database) : SameAbout instrument db db :=
  ⟨rfl, rfl, rfl, rfl, rfl⟩

theorem SameAbout.trans {db' db'' : Database} (h : SameAbout instrument db db')
    (h' : SameAbout instrument db' db'') : SameAbout instrument db db'' :=
  ⟨h'.instruments.trans h.instruments, h'.bars.trans h.bars, h'.news.trans h.news,
    h'.disclosures.trans h.disclosures, h'.snapshots.trans h.snapshots⟩

theorem Spares.of_sameAbout {call : UpsertCall} (h : Spares db instrument call) {db' : Database}
    (hsame : SameAbout instrument db db') : Spares db' instrument call := by
  cases call with
  | bars rows => exact SparesKind.of_filter h hsame.bars
  | news rows => exact SparesKind.of_filter h hsame.news
  | disclosures rows => exact SparesKind.of_filter h hsame.disclosures
  | snapshots rows => exact h

theorem Spares.sameAbout_commit {call : UpsertCall} (h : Spares db instrument call) :
    SameAbout instrument db (call.commit db) := by
  cases call with
  | bars rows => exact { SameAbout.refl instrument db with bars := SparesKind.filter_rows h }
  | news rows => exact { SameAbout.refl instrument db with news := SparesKind.filter_rows h }
  | disclosures rows =>
    exact { SameAbout.refl instrument db with disclosures := SparesKind.filter_rows h }
  | snapshots rows =>
    -- A refused batch is rolled back.
    cases hwritten : upsertSnapshots db.orderbookSnapshots rows with
    | error e =>
      rw [UpsertCall.commit_snapshots_error hwritten]
      exact SameAbout.refl instrument db
    | ok written =>
      rw [UpsertCall.commit_snapshots_ok hwritten]
      rw [((upsertEventRows_ok_iff ..).mp hwritten).2]
      exact { SameAbout.refl instrument db with snapshots := Table.filter_insertAll h _ }

/-- A run of calls. -/
theorem sameAbout_after {calls : List UpsertCall}
    (h : ∀ call ∈ calls, Spares db instrument call) : SameAbout instrument db (db.after calls) := by
  induction calls generalizing db with
  | nil => exact SameAbout.refl instrument db
  | cons call rest ih =>
    have hfirst := (h call List.mem_cons_self).sameAbout_commit
    refine hfirst.trans (ih fun call' hcall' => ?_)
    exact (h call' (List.mem_cons_of_mem call hcall')).of_sameAbout hfirst

end Calls

namespace ScannerPipeline

section SameAbout

variable {instrument : InstrumentRow} {db db' : Database} (h : SameAbout instrument db db')
  (pipeline : ScannerPipeline) (engine : Engine) (asOf : Instant)

include h

theorem readBars_of_sameAbout : pipeline.readBars engine db' instrument asOf =
    pipeline.readBars engine db instrument asOf := by
  unfold readBars getBarsAsOf
  simp only [selectLatestRevisionAsOf_of_filter h.bars engine.bars fun r hr =>
    decide_eq_true ((barFilter_iff ..).mp hr).1]

theorem readEventInput_of_sameAbout (bars : List MarketBarRow) :
    pipeline.readEventInput engine db' instrument asOf bars =
      pipeline.readEventInput engine db instrument asOf bars := by
  have hnews : ∀ start, getNewsAsOf engine.news db'.newsEvents start asOf asOf
      (some instrument.symbol) = getNewsAsOf engine.news db.newsEvents start asOf asOf
        (some instrument.symbol) := fun start =>
    congrArg _ (selectLatestRevisionAsOf_of_filter h.news engine.news
      (fun r hr => ((Bool.and_eq_true _ _).mp hr).2) asOf)
  have hdisclosures : ∀ start, getDisclosuresAsOf engine.disclosures db'.disclosureEvents start
      asOf asOf (some instrument.id) = getDisclosuresAsOf engine.disclosures db.disclosureEvents
        start asOf asOf (some instrument.id) := fun start =>
    congrArg _ (selectLatestRevisionAsOf_of_filter h.disclosures engine.disclosures
      (fun r hr => ((Bool.and_eq_true _ _).mp hr).2) asOf)
  have hvisible : ∀ d : Database, visibleSnapshots d.orderbookSnapshots instrument.id asOf =
      (d.orderbookSnapshots.rows.filter fun r => snapshotKind instrument r.naturalKey).filter
        fun r => decide (r.availableAt ≤ asOf) := by
    intro d
    rw [List.filter_filter]
    refine List.filter_congr fun r _ => Bool.and_comm _ _
  unfold readEventInput getLatestAsOf
  simp only [hnews, hdisclosures, hvisible db', hvisible db, h.snapshots]

theorem scanInstrument_of_sameAbout : pipeline.scanInstrument engine db' instrument asOf =
    pipeline.scanInstrument engine db instrument asOf := by
  unfold scanInstrument
  simp only [readBars_of_sameAbout h, readEventInput_of_sameAbout h]

end SameAbout

/-- The scan of another exchange, or of all of them. -/
def ofExchange (pipeline : ScannerPipeline) (exchange : Option String) : ScannerPipeline :=
  { pipeline with config := { pipeline.config with exchange } }

theorem scanInstrument_ofExchange (pipeline : ScannerPipeline) (exchange : Option String)
    (engine : Engine) (db : Database) (instrument : InstrumentRow) (asOf : Instant) :
    (pipeline.ofExchange exchange).scanInstrument engine db instrument asOf =
      pipeline.scanInstrument engine db instrument asOf := rfl

variable {pipeline : ScannerPipeline} {market : OrderBy InstrumentRow byExchangeAndSymbol}
  {engines : InstrumentRow → Engine} {db : Database} {instrument : InstrumentRow} {asOf : Instant}
  {candidates : List Candidate}

theorem mem_listAll_iff {instruments : Instruments} {exchange : Option String} :
    instrument ∈ listAll market instruments exchange ↔
      instrument ∈ instruments.table.rows ∧ ∀ e, exchange = some e → instrument.exchange = e := by
  rw [listAll, OrderBy.mem_arrange_iff, List.mem_filter]
  cases exchange with
  | none => simp
  | some e => simp

/-- The candidate under an instrument's id is what the scan of that instrument returns. -/
theorem mem_iff_of_scan (hscan : pipeline.scan market engines db asOf = .ok candidates)
    (hlisted : instrument ∈ listAll market db.instruments pipeline.config.exchange)
    {c : Candidate} (hc : c.instrumentId = instrument.id) :
    c ∈ candidates ↔
      pipeline.scanInstrument (engines instrument) db instrument asOf = .ok c := by
  have hmem := Raise.exists_mem_iff_of_mapM hscan (· = c)
  rw [exists_eq_right] at hmem
  rw [hmem]
  constructor
  · rintro ⟨scanned, hscanned, c', hreturns, rfl⟩
    have hid : scanned.id = instrument.id := by
      rw [← hc]
      exact (congrArg Prod.fst (identity_of_scanInstrument hreturns)).symm
    have hsame : scanned = instrument :=
      List.inj_on_of_nodup_map db.instruments.ids (mem_listAll_iff.mp hscanned).1
        (mem_listAll_iff.mp hlisted).1 hid
    rw [← hsame]
    exact hreturns
  · intro hreturns
    exact ⟨instrument, hlisted, c, hreturns, rfl⟩

end ScannerPipeline

/-- Calls that write nothing about an instrument leave its candidate as it was, in scans of
whichever exchanges list it. -/
theorem candidate_isolated {pipeline : ScannerPipeline}
    {market market' : OrderBy InstrumentRow byExchangeAndSymbol} {engines : InstrumentRow → Engine}
    {db : Database} {calls : List UpsertCall} {asOf : Instant} {instrument : InstrumentRow}
    {exchange exchange' : Option String} {before afterwards : List Candidate}
    (hcalls : ∀ call ∈ calls, Spares db instrument call)
    (hlisted : instrument ∈ listAll market db.instruments exchange)
    (hlisted' : instrument ∈ listAll market' db.instruments exchange')
    (hbefore : (pipeline.ofExchange exchange).scan market engines db asOf = .ok before)
    (hafter : (pipeline.ofExchange exchange').scan market' engines (db.after calls) asOf =
      .ok afterwards) :
    ∀ c, c.instrumentId = instrument.id → (c ∈ before ↔ c ∈ afterwards) := by
  intro c hc
  have hsame := sameAbout_after hcalls
  rw [← hsame.instruments] at hlisted'
  rw [ScannerPipeline.mem_iff_of_scan hbefore hlisted hc,
    ScannerPipeline.mem_iff_of_scan hafter hlisted' hc,
    ScannerPipeline.scanInstrument_ofExchange, ScannerPipeline.scanInstrument_ofExchange,
    ScannerPipeline.scanInstrument_of_sameAbout hsame]

/-- A second instrument is listed. -/
def twoListed : Database :=
  { listedWith (.str "TRADING") with
    instruments :=
      ((listedWith (.str "TRADING")).instruments.getOrCreate "KR" "000660" "toss_openapi" none none
        none).1 }

/-- A bar of the second instrument. -/
def secondBar : BarInput := { oneBar with key := { oneBar.key with instrumentId := 2 } }

theorem secondBar_spares :
    ∀ call ∈ [UpsertCall.bars [secondBar]],
      Spares twoListed (listedRow (.str "TRADING")) call := by
  intro call hcall
  rw [List.mem_singleton] at hcall
  rw [hcall]
  intro input hinput
  rw [List.mem_singleton] at hinput
  rw [hinput]
  refine ⟨rfl, fun r hr _ hsame => ?_⟩
  rw [List.mem_singleton.mp hr] at hsame
  exact absurd hsame (by decide)

theorem secondBar_leaves_first :
    ∃ before afterwards,
      (haltFilter.toPipeline.ofExchange none).scan stableMarket (fun _ => Engine.stable)
        twoListed 0 = .ok before ∧
      (haltFilter.toPipeline.ofExchange (some "KR")).scan stableMarket (fun _ => Engine.stable)
        (twoListed.after [.bars [secondBar]]) 0 = .ok afterwards ∧
      ∀ c, c.instrumentId = 1 → (c ∈ before ↔ c ∈ afterwards) :=
  ⟨_, _, rfl, rfl, @candidate_isolated haltFilter.toPipeline stableMarket stableMarket
    (fun _ => Engine.stable) twoListed [.bars [secondBar]] 0 (listedRow (.str "TRADING")) none
    (some "KR") _ _ secondBar_spares
    (ScannerPipeline.mem_listAll_iff.mpr ⟨List.mem_cons_self, nofun⟩)
    (ScannerPipeline.mem_listAll_iff.mpr ⟨List.mem_cons_self, by simp [listedRow]⟩) rfl rfl⟩

end Scanners
end QuantPlatform
