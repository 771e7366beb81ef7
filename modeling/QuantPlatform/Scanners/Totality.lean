/-
A scan is as total as its most fragile instrument.

A scan returns exactly when the scan of every instrument does, and `Answers` says stage by
stage when that is: the lookback windows lie in the range of dates, every filter has an
answer, and so have the plugins and conditions that are reached.  A threshold that is not a
number and a window before the year one are a matter of the configuration.  That what a flag
filter finds has a hash is one of the data: a list in one instrument's payload loses the scan.
-/
import QuantPlatform.Scanners.Events
import QuantPlatform.Scanners.Gate
import Mathlib.Data.String.Basic

namespace QuantPlatform
namespace Scanners

open Db Relational

/-- The condition can be evaluated on the features: only an order comparison with a threshold
that is not a number cannot. -/
def StrategyCondition.Answers (featureSet : FeatureSet) (condition : StrategyCondition) : Prop :=
  condition.threshold ≠ .nan ∨ condition.comparator = .eq ∨ condition.comparator = .neq ∨
    featureSet.get condition.field = none

/-- Every value of the features is finite. -/
def FiniteFeatures (values : List (String × Decimal)) : Prop :=
  ∀ entry ∈ values, entry.2.IsFinite

theorem mem_of_lookup {values : List (String × Decimal)} {name : String} {value : Decimal}
    (h : values.lookup name = some value) : (name, value) ∈ values := by
  induction values with
  | nil => cases h
  | cons entry rest ih =>
    rw [List.lookup_cons] at h
    split at h
    · next hname =>
      rw [List.mem_cons]
      exact .inl (Prod.ext (beq_iff_eq.mp hname) (Option.some.inj h).symm)
    · exact List.mem_cons_of_mem entry (ih h)

theorem StrategyCondition.evaluate_iff (condition : StrategyCondition) {featureSet : FeatureSet}
    (hfinite : FiniteFeatures featureSet.values) :
    (∃ result, StrategyScanner.evaluateCondition featureSet condition = .ok result) ↔
      condition.Answers featureSet := by
  unfold StrategyScanner.evaluateCondition StrategyCondition.Answers
  cases hget : featureSet.get condition.field with
  | none => exact iff_of_true ⟨_, rfl⟩ (.inr (.inr (.inr rfl)))
  | some observed =>
    have hobserved := hfinite _ (mem_of_lookup hget)
    refine Raise.exists_bind_pure_iff.trans ?_
    cases hcomparator : condition.comparator with
    | eq => exact iff_of_true ⟨_, rfl⟩ (.inr (.inl rfl))
    | neq => exact iff_of_true ⟨_, rfl⟩ (.inr (.inr (.inl rfl)))
    | gt | gte | lt | lte =>
      refine (Decimal.ordered_eq_ok_iff hobserved).trans ?_
      simp

theorem finiteFeatures_setItem {values : List (String × Decimal)} (hvalues : FiniteFeatures values)
    (name : String) {value : Decimal} (hvalue : value.IsFinite) :
    FiniteFeatures (setItem values name value) := by
  induction values with
  | nil => simpa [setItem, FiniteFeatures] using hvalue
  | cons entry rest ih =>
    obtain ⟨hentry, hrest⟩ := List.forall_mem_cons.mp hvalues
    unfold setItem
    split_ifs with hname
    · exact List.forall_mem_cons.mpr ⟨hvalue, hrest⟩
    · exact List.forall_mem_cons.mpr ⟨hentry, ih hrest⟩

theorem finiteFeatures_foldl {found : List EventDetection}
    (hfound : ∀ detection ∈ found, ∀ d, detection.observedValue = .decimal d → d.IsFinite)
    {values : List (String × Decimal)} (hvalues : FiniteFeatures values) :
    FiniteFeatures (found.foldl (fun values detection =>
      match detection.observedValue with
      | .decimal d => setItem values detection.eventName d
      | _ => values) values) := by
  induction found generalizing values with
  | nil => exact hvalues
  | cons detection rest ih =>
    refine ih (fun later hlater => hfound later (List.mem_cons_of_mem detection hlater)) ?_
    dsimp only
    split
    · next d hobserved =>
      exact finiteFeatures_setItem hvalues _ (hfound detection List.mem_cons_self d hobserved)
    · exact hvalues

namespace ScannerPipeline

variable (pipeline : ScannerPipeline) (engine : Engine) (db : Database)
  (instrument : InstrumentRow) (asOf : Instant)

theorem finiteFeatures_buildFeatureSet {bars : List MarketBarRow} {found : List EventDetection}
    (hbars : ∀ bar ∈ bars, bar.closePrice.IsFinite ∧ bar.volume.IsFinite)
    (hfound : ∀ detection ∈ found, ∀ d, detection.observedValue = .decimal d → d.IsFinite) :
    FiniteFeatures (pipeline.buildFeatureSet instrument bars found asOf).values := by
  have hempty : FiniteFeatures [] := fun entry hentry => absurd hentry List.not_mem_nil
  refine finiteFeatures_foldl hfound ?_
  split
  · exact hempty
  · next latest hlast =>
    obtain ⟨hclose, hvolume⟩ := hbars latest (List.mem_of_getLast? hlast)
    exact finiteFeatures_setItem (finiteFeatures_setItem hempty _ hclose) _ hvolume

variable {pipeline engine db instrument asOf}

/-- The scan of an instrument returns when every stage that is reached does. -/
theorem exists_scanInstrument_iff :
    (∃ c, pipeline.scanInstrument engine db instrument asOf = .ok c) ↔
      ∃ bars results, pipeline.readBars engine db instrument asOf = .ok bars ∧
        pipeline.universeResults instrument bars = .ok results ∧
        (results.all UniverseFilterResult.passed = true →
          ∃ input found, pipeline.readEventInput engine db instrument asOf bars = .ok input ∧
            pipeline.detections instrument input = .ok found ∧
            ((pipeline.applicableScanners instrument).isEmpty = true ∨
                found.any EventDetection.detected = true →
              ∃ result, pipeline.evaluateRules
                (pipeline.buildFeatureSet instrument bars found asOf) = .ok result)) := by
  constructor
  · rintro ⟨c, hc⟩
    obtain ⟨bars, results, hbars, hresults, hends⟩ := scanInstrument_cases hc
    refine ⟨bars, results, hbars, hresults, fun hpassed => ?_⟩
    obtain ⟨hfailed, _⟩ | ⟨_, input, found, hinput, hfound, hevents⟩ := hends
    · rw [hpassed] at hfailed
      cases hfailed
    · refine ⟨input, found, hinput, hfound, fun hreached => ?_⟩
      obtain ⟨hnone, hnot, _⟩ | ⟨_, result, hresult, _⟩ := hevents
      · rw [hnone, hnot] at hreached
        simp at hreached
      · exact ⟨result, hresult⟩
  · rintro ⟨bars, results, hbars, hresults, hrest⟩
    refine Raise.exists_bind_eq_ok_iff.mpr ⟨bars, hbars, Raise.exists_bind_eq_ok_iff.mpr
      ⟨results, hresults, ?_⟩⟩
    split_ifs with hpassed
    · obtain ⟨input, found, hinput, hfound, hrules⟩ := hrest hpassed
      refine Raise.exists_bind_eq_ok_iff.mpr ⟨input, hinput, Raise.exists_bind_eq_ok_iff.mpr
        ⟨found, hfound, ?_⟩⟩
      by_cases hreached : (if (pipeline.applicableScanners instrument).isEmpty = true then true
          else found.any EventDetection.detected) = true
      · rw [if_pos hreached]
        exact Raise.exists_bind_pure_iff.mpr (hrules (by simpa [Classical.or_iff_not_imp_left]
          using hreached))
      · rw [if_neg hreached]
        exact ⟨_, rfl⟩
    · exact ⟨_, rfl⟩

end ScannerPipeline

/-- `t - timedelta(days=n)` is a date. -/
def InRange (t : Instant) (days : Int) : Prop :=
  days.natAbs ≤ 999999999 ∧
    Instant.datetimeMin ≤ t - days * Instant.microsecondsPerDay ∧
    t - days * Instant.microsecondsPerDay ≤ Instant.datetimeMax

instance (t : Instant) (days : Int) : Decidable (InRange t days) :=
  inferInstanceAs (Decidable (_ ∧ _ ∧ _))

theorem exists_minusDays_iff (t : Instant) (days : Int) :
    (∃ start, Instant.minusDays t days = .ok start) ↔ InRange t days := by
  unfold Instant.minusDays InRange
  dsimp only
  by_cases hdays : 999999999 < days.natAbs
  · rw [if_pos hdays]
    exact iff_of_false nofun (fun h => absurd h.1 (by omega))
  · rw [if_neg hdays]
    by_cases hout : t - days * Instant.microsecondsPerDay < Instant.datetimeMin ∨
        Instant.datetimeMax < t - days * Instant.microsecondsPerDay
    · rw [if_pos hout]
      refine iff_of_false nofun (fun h => ?_)
      exact hout.elim (not_lt.mpr h.2.1) (not_lt.mpr h.2.2)
    · rw [if_neg hout]
      rw [not_or, not_lt, not_lt] at hout
      exact iff_of_true ⟨_, rfl⟩ ⟨not_lt.mp hdays, hout⟩

/-- A database whose bars and levels hold numbers, and whose tables are of a size that a
database can have. -/
structure NumericDatabase (db : Database) : Prop where
  bars : ∀ row ∈ db.marketBars.rows, NumericBar (MarketBarRow.ofRow row)
  barCount : db.marketBars.rows.length < 10 ^ 13
  orderbooks : ∀ snapshot ∈ db.orderbookSnapshots.rows, NumericOrderbook snapshot

section Reads

variable {pipeline : ScannerPipeline} {engine : Engine} {db : Database}
  {instrument : InstrumentRow} {asOf : Instant}

theorem exists_readBars_iff :
    (∃ bars, pipeline.readBars engine db instrument asOf = .ok bars) ↔
      InRange asOf pipeline.config.lookbackDays :=
  Raise.exists_bind_pure_iff.trans (exists_minusDays_iff ..)

theorem exists_readEventInput_iff (bars : List MarketBarRow) :
    (∃ input, pipeline.readEventInput engine db instrument asOf bars = .ok input) ↔
      InRange asOf pipeline.config.newsLookbackDays ∧
        InRange asOf pipeline.config.disclosureLookbackDays := by
  rw [← exists_minusDays_iff, ← exists_minusDays_iff]
  refine Raise.exists_bind_eq_ok_iff.trans ?_
  constructor
  · rintro ⟨start, hstart, hrest⟩
    exact ⟨⟨start, hstart⟩, Raise.exists_bind_pure_iff.mp hrest⟩
  · rintro ⟨⟨start, hstart⟩, hrest⟩
    exact ⟨start, hstart, Raise.exists_bind_pure_iff.mpr hrest⟩

/-- A read returns no more bars than the table has rows. -/
theorem length_getBarsAsOf_le (order : BarOrder) (table : MarketBars) (instrumentId : Nat)
    (timeframe : String) (start stop asOf : Instant) :
    (getBarsAsOf order table instrumentId timeframe start stop asOf).length ≤
      table.rows.length := by
  rw [getBarsAsOf, List.length_map, selectLatestRevisionAsOf, (order.perm _).length_eq]
  refine (List.subperm_of_subset ((keys_latestRevisions_nodup ..).of_map _) ?_).length_le
  intro row hrow
  exact ((mem_latestRevisions_iff ..).mp hrow).1.1

variable (hdb : NumericDatabase db)

include hdb

theorem numericBars_of_readBars {bars : List MarketBarRow}
    (h : pipeline.readBars engine db instrument asOf = .ok bars) : NumericBars bars := by
  obtain ⟨start, _, hbars⟩ := Raise.bind_eq_ok_iff.mp h
  cases hbars
  refine ⟨fun bar hbar => ?_, (length_getBarsAsOf_le ..).trans_lt hdb.barCount⟩
  obtain ⟨row, hcurrent, _, hrow⟩ := (mem_getBarsAsOf_iff ..).mp hbar
  rw [← hrow]
  exact hdb.bars row hcurrent.1

theorem numericInput_of_readEventInput {bars : List MarketBarRow} {input : EventScanInput}
    (hbars : NumericBars bars)
    (h : pipeline.readEventInput engine db instrument asOf bars = .ok input) :
    NumericInput input ∧ input.bars = bars := by
  obtain ⟨newsStart, _, hrest⟩ := Raise.bind_eq_ok_iff.mp h
  obtain ⟨disclosureStart, _, hinput⟩ := Raise.bind_eq_ok_iff.mp hrest
  cases hinput
  refine ⟨⟨hbars, fun snapshot hsnapshot => hdb.orderbooks snapshot ?_⟩, rfl⟩
  have hmem := List.mem_of_mem_head? hsnapshot
  exact ((mem_visibleSnapshots_iff ..).mp ((OrderBy.mem_arrange_iff ..).mp hmem)).1

end Reads

/-! ## Pipelines of shipped parts -/

structure ShippedPipeline where
  config : PipelineConfig
  universeFilters : List ShippedFilter
  eventScanners : List ShippedPlugin
  strategyRuleSet : Option StrategyRuleSet
  dataSource : String

namespace ShippedPipeline

def toPipeline (shipped : ShippedPipeline) : ScannerPipeline :=
  { config := shipped.config
    universeFilters := shipped.universeFilters.map ShippedFilter.toUniverseFilter
    eventScanners := shipped.eventScanners.map ShippedPlugin.toPlugin
    strategyRuleSet := shipped.strategyRuleSet
    dataSource := shipped.dataSource }

variable (shipped : ShippedPipeline) (engine : Engine) (db : Database)
  (instrument : InstrumentRow) (asOf : Instant)

/-- Every filter has an answer. -/
def FiltersAnswer (bars : List MarketBarRow) : Prop :=
  ∀ filter ∈ shipped.universeFilters, filter.Answers { instrument, recentBars := bars }

/-- Every plugin that applies has an answer. -/
def PluginsAnswer (input : EventScanInput) : Prop :=
  ∀ plugin ∈ shipped.eventScanners,
    ScannerPipeline.applies plugin.toPlugin instrument = true → plugin.Answers input

/-- Every condition can be evaluated. -/
def RulesAnswer (featureSet : FeatureSet) : Prop :=
  ∀ ruleSet, shipped.strategyRuleSet = some ruleSet →
    ∀ condition ∈ ruleSet.conditions, condition.Answers featureSet

/-- Whatever is asked of an instrument has an answer: the filters always, the plugins of an
instrument that passes them, and the conditions once a plugin detected something. -/
structure Answers : Prop where
  barsWindow : InRange asOf shipped.config.lookbackDays
  filters : ∀ bars, shipped.toPipeline.readBars engine db instrument asOf = .ok bars →
    shipped.FiltersAnswer instrument bars
  eventWindows : ∀ bars, shipped.toPipeline.readBars engine db instrument asOf = .ok bars →
    shipped.toPipeline.PassesUniverse instrument bars →
      InRange asOf shipped.config.newsLookbackDays ∧
        InRange asOf shipped.config.disclosureLookbackDays
  plugins : ∀ bars input, shipped.toPipeline.readBars engine db instrument asOf = .ok bars →
    shipped.toPipeline.PassesUniverse instrument bars →
      shipped.toPipeline.readEventInput engine db instrument asOf bars = .ok input →
        shipped.PluginsAnswer instrument input
  rules : ∀ bars input found, shipped.toPipeline.readBars engine db instrument asOf = .ok bars →
    shipped.toPipeline.PassesUniverse instrument bars →
      shipped.toPipeline.readEventInput engine db instrument asOf bars = .ok input →
        shipped.toPipeline.detections instrument input = .ok found →
          ((shipped.toPipeline.applicableScanners instrument).isEmpty = true ∨
            found.any EventDetection.detected = true) →
              shipped.RulesAnswer (shipped.toPipeline.buildFeatureSet instrument bars found asOf)

variable {shipped engine db instrument asOf}

theorem exists_universeResults_iff {bars : List MarketBarRow} (hbars : NumericBars bars) :
    (∃ results, shipped.toPipeline.universeResults instrument bars = .ok results) ↔
      shipped.FiltersAnswer instrument bars := by
  refine Raise.exists_mapM_eq_ok_iff.trans ?_
  simp only [toPipeline, List.forall_mem_map]
  exact forall₂_congr fun filter _ => filter.evaluate_iff hbars

theorem exists_detections_iff {input : EventScanInput} (hinput : NumericInput input) :
    (∃ found, shipped.toPipeline.detections instrument input = .ok found) ↔
      shipped.PluginsAnswer instrument input := by
  refine Raise.exists_mapM_eq_ok_iff.trans ?_
  simp only [ScannerPipeline.applicableScanners, toPipeline, List.mem_filter, List.mem_map,
    PluginsAnswer]
  constructor
  · intro h plugin hplugin happlies
    exact (plugin.detect_iff hinput).mp (h _ ⟨⟨plugin, hplugin, rfl⟩, happlies⟩)
  · rintro h _ ⟨⟨plugin, hplugin, rfl⟩, happlies⟩
    exact (plugin.detect_iff hinput).mpr (h plugin hplugin happlies)

theorem finiteFeatures_of_detections {bars : List MarketBarRow} {input : EventScanInput}
    {found : List EventDetection} (hbars : NumericBars bars) (hinput : NumericInput input)
    (hfound : shipped.toPipeline.detections instrument input = .ok found) :
    FiniteFeatures (shipped.toPipeline.buildFeatureSet instrument bars found asOf).values := by
  refine ScannerPipeline.finiteFeatures_buildFeatureSet _ _ _ (fun bar hbar => ?_) ?_
  · exact ⟨(hbars.numeric bar hbar).closePrice.isFinite, (hbars.numeric bar hbar).volume.isFinite⟩
  · refine (Raise.forall_mem_iff_of_mapM hfound _).mpr fun scanner hscanner => ?_
    obtain ⟨detection, hdetect⟩ := Raise.exists_mapM_eq_ok_iff.mp ⟨found, hfound⟩ scanner hscanner
    simp only [ScannerPipeline.applicableScanners, toPipeline, List.mem_filter, List.mem_map]
      at hscanner
    obtain ⟨⟨plugin, _, rfl⟩, _⟩ := hscanner
    exact ⟨detection, hdetect, fun d hd => plugin.isFinite_observedValue hinput hdetect hd⟩

theorem exists_evaluateRules_iff {featureSet : FeatureSet}
    (hfinite : FiniteFeatures featureSet.values) :
    (∃ result, shipped.toPipeline.evaluateRules featureSet = .ok result) ↔
      shipped.RulesAnswer featureSet := by
  have hsame : shipped.toPipeline.strategyRuleSet = shipped.strategyRuleSet := rfl
  unfold ScannerPipeline.evaluateRules RulesAnswer
  rw [hsame]
  cases shipped.strategyRuleSet with
  | none => exact iff_of_true ⟨_, rfl⟩ nofun
  | some ruleSet =>
    refine Raise.exists_bind_pure_iff.trans (Raise.exists_bind_pure_iff.trans
      (Raise.exists_mapM_eq_ok_iff.trans ?_))
    simp only [Option.some.injEq, forall_eq']
    exact forall₂_congr fun condition _ => condition.evaluate_iff hfinite

/-- The scan of an instrument returns exactly when it has an answer to everything. -/
theorem exists_scanInstrument_iff_answers (hdb : NumericDatabase db) :
    (∃ c, shipped.toPipeline.scanInstrument engine db instrument asOf = .ok c) ↔
      shipped.Answers engine db instrument asOf := by
  rw [ScannerPipeline.exists_scanInstrument_iff]
  constructor
  · rintro ⟨bars, results, hbars, hresults, hrest⟩
    have hnumeric := numericBars_of_readBars hdb hbars
    have huniverse := ScannerPipeline.passesUniverse_iff hresults
    have hsame : ∀ bars', shipped.toPipeline.readBars engine db instrument asOf = .ok bars' →
        bars' = bars := fun bars' h => Except.ok.inj (h.symm.trans hbars)
    refine ⟨exists_readBars_iff.mp ⟨bars, hbars⟩, ?_, ?_, ?_, ?_⟩
    · intro bars' hbars'
      rw [hsame bars' hbars']
      exact (exists_universeResults_iff hnumeric).mp ⟨results, hresults⟩
    · intro bars' hbars' hpasses
      rw [hsame bars' hbars'] at hpasses
      obtain ⟨input, _, hinput, _⟩ := hrest (huniverse.mp hpasses)
      exact (exists_readEventInput_iff bars).mp ⟨input, hinput⟩
    · intro bars' input' hbars' hpasses hinput'
      rw [hsame bars' hbars'] at hpasses hinput'
      obtain ⟨input, found, hinput, hfound, _⟩ := hrest (huniverse.mp hpasses)
      rw [Except.ok.inj (hinput'.symm.trans hinput)]
      have hread := (numericInput_of_readEventInput hdb hnumeric hinput).1
      exact (exists_detections_iff hread).mp ⟨found, hfound⟩
    · intro bars' input' found' hbars' hpasses hinput' hfound' hreached
      rw [hsame bars' hbars'] at hpasses hinput' ⊢
      obtain ⟨input, found, hinput, hfound, hrules⟩ := hrest (huniverse.mp hpasses)
      rw [Except.ok.inj (hinput'.symm.trans hinput)] at hfound'
      have hread := (numericInput_of_readEventInput hdb hnumeric hinput).1
      rw [Except.ok.inj (hfound'.symm.trans hfound)] at hreached ⊢
      exact (exists_evaluateRules_iff (finiteFeatures_of_detections hnumeric hread hfound)).mp
        (hrules hreached)
  · intro hanswers
    obtain ⟨bars, hbars⟩ : ∃ bars, shipped.toPipeline.readBars engine db instrument asOf =
        .ok bars := exists_readBars_iff.mpr hanswers.barsWindow
    have hnumeric := numericBars_of_readBars hdb hbars
    obtain ⟨results, hresults⟩ :=
      (exists_universeResults_iff hnumeric).mpr (hanswers.filters bars hbars)
    refine ⟨bars, results, hbars, hresults, fun hpassed => ?_⟩
    have hpasses := (ScannerPipeline.passesUniverse_iff hresults).mpr hpassed
    obtain ⟨input, hinput⟩ : ∃ input, shipped.toPipeline.readEventInput engine db instrument
        asOf bars = .ok input :=
      (exists_readEventInput_iff bars).mpr (hanswers.eventWindows bars hbars hpasses)
    have hread := (numericInput_of_readEventInput hdb hnumeric hinput).1
    obtain ⟨found, hfound⟩ :=
      (exists_detections_iff hread).mpr (hanswers.plugins bars input hbars hpasses hinput)
    refine ⟨input, found, hinput, hfound, fun hreached => ?_⟩
    exact (exists_evaluateRules_iff (finiteFeatures_of_detections hnumeric hread hfound)).mpr
      (hanswers.rules bars input found hbars hpasses hinput hfound hreached)

end ShippedPipeline

/-! ## The scan of a market -/

namespace ScannerPipeline

variable {pipeline : ScannerPipeline} {market : OrderBy InstrumentRow byExchangeAndSymbol}
  {engines : InstrumentRow → Engine} {engine : Engine} {db : Database} {asOf : Instant}

/-- A scan raises nothing and returns one candidate for each instrument of the exchange, in the
order of exchange and symbol. -/
def ScansAll (pipeline : ScannerPipeline) (market : OrderBy InstrumentRow byExchangeAndSymbol)
    (engines : InstrumentRow → Engine) (db : Database) (asOf : Instant) : Prop :=
  ∃ candidates, pipeline.scan market engines db asOf = .ok candidates ∧
    candidates.map (fun c => (c.instrumentId, c.exchange, c.symbol)) =
      (listAll market db.instruments pipeline.config.exchange).map
        (fun i => (i.id, i.exchange, i.symbol)) ∧
    candidates.Pairwise fun a b =>
      a.exchange < b.exchange ∨ (a.exchange = b.exchange ∧ a.symbol ≤ b.symbol)

/-- A candidate is of the instrument that was scanned. -/
theorem identity_of_scanInstrument {instrument : InstrumentRow} {c : Candidate}
    (h : pipeline.scanInstrument engine db instrument asOf = .ok c) :
    (c.instrumentId, c.exchange, c.symbol) =
      (instrument.id, instrument.exchange, instrument.symbol) := by
  obtain ⟨_, _, _, _, ⟨_, rfl⟩ | ⟨_, _, _, _, _, ⟨_, _, rfl⟩ | ⟨_, _, _, rfl⟩⟩⟩ :=
    scanInstrument_cases h
  · rfl
  · rfl
  · rfl

/-- What a scan returns is as it should be, so all it takes is that no instrument raises. -/
theorem scansAll_iff_exists : pipeline.ScansAll market engines db asOf ↔
    ∀ instrument ∈ listAll market db.instruments pipeline.config.exchange,
      ∃ c, pipeline.scanInstrument (engines instrument) db instrument asOf = .ok c := by
  rw [← Raise.exists_mapM_eq_ok_iff]
  constructor
  · rintro ⟨candidates, hscan, _⟩
    exact ⟨candidates, hscan⟩
  · rintro ⟨candidates, hscan⟩
    have hidentity : candidates.map (fun c => (c.instrumentId, c.exchange, c.symbol)) =
        (listAll market db.instruments pipeline.config.exchange).map
          (fun i => (i.id, i.exchange, i.symbol)) := by
      rw [← List.forall₂_eq_eq_eq, List.forall₂_map_left_iff, List.forall₂_map_right_iff]
      exact (Raise.mapM_eq_ok_iff.mp hscan).flip.imp fun c instrument h =>
        identity_of_scanInstrument h
    refine ⟨candidates, hscan, hidentity, ?_⟩
    have hsorted : (listAll market db.instruments pipeline.config.exchange).Pairwise
        byExchangeAndSymbol := market.sorted _
    have hpairs : ((listAll market db.instruments pipeline.config.exchange).map
        fun i => (i.id, i.exchange, i.symbol)).Pairwise fun a b =>
          a.2.1 < b.2.1 ∨ (a.2.1 = b.2.1 ∧ a.2.2 ≤ b.2.2) :=
      List.pairwise_map.mpr hsorted
    rw [← hidentity] at hpairs
    exact List.pairwise_map.mp hpairs

end ScannerPipeline

/-- A scan of shipped parts returns exactly when every instrument has its answers. -/
theorem scansAll_iff_answers (shipped : ShippedPipeline)
    (market : OrderBy InstrumentRow byExchangeAndSymbol) (engines : InstrumentRow → Engine)
    {db : Database} (hdb : NumericDatabase db) (asOf : Instant) :
    shipped.toPipeline.ScansAll market engines db asOf ↔
      ∀ instrument ∈ listAll market db.instruments shipped.config.exchange,
        shipped.Answers (engines instrument) db instrument asOf := by
  rw [ScannerPipeline.scansAll_iff_exists]
  exact forall₂_congr fun instrument _ => ShippedPipeline.exists_scanInstrument_iff_answers hdb

instance : DecidableRel byExchangeAndSymbol :=
  fun a b => inferInstanceAs (Decidable (a.exchange < b.exchange ∨ _))

instance : Std.Total byExchangeAndSymbol where
  total a b := by
    unfold byExchangeAndSymbol
    rcases lt_trichotomy a.exchange b.exchange with h | h | h
    · exact .inl (.inl h)
    · rcases le_total a.symbol b.symbol with hs | hs
      · exact .inl (.inr ⟨h, hs⟩)
      · exact .inr (.inr ⟨h.symm, hs⟩)
    · exact .inr (.inl h)

instance : IsTrans InstrumentRow byExchangeAndSymbol where
  trans a b c hab hbc := by
    unfold byExchangeAndSymbol at *
    rcases hab with hab | ⟨hab, hsab⟩
    · rcases hbc with hbc | ⟨hbc, _⟩
      · exact .inl (lt_trans hab hbc)
      · exact .inl (hbc ▸ hab)
    · rcases hbc with hbc | ⟨hbc, hsbc⟩
      · exact .inl (hab ▸ hbc)
      · exact .inr ⟨hab.trans hbc, le_trans hsab hsbc⟩

/-- The market with ties left as they were written. -/
def stableMarket : OrderBy InstrumentRow byExchangeAndSymbol where
  arrange := List.insertionSort byExchangeAndSymbol
  perm := List.perm_insertionSort _
  sorted := List.pairwise_insertionSort _

def oneBar : BarInput where
  key := { instrumentId := 1, timeframe := "1d", eventTime := 0, source := "toss" }
  availableAt := 0
  ingestedAt := 0
  value :=
    { openPrice := .ofInt 70, highPrice := .ofInt 72, lowPrice := .ofInt 69, closePrice := .ofInt 71
      volume := .ofInt 1000, currency := some "KRW" }

/-- An orderbook of one level. -/
def oneLevel : OrderBookSnapshotRow where
  instrumentId := 1
  eventTime := 0
  availableAt := 0
  ingestedAt := 0
  currency := some "KRW"
  asks := [[("price", .str "72"), ("volume", .str "10")]]
  bids := []
  source := "toss"

/-- One instrument with a trading status in its payload, a bar and an orderbook. -/
def listedWith (status : PyValue) : Database :=
  { Database.empty with
    instruments :=
      (Instruments.empty.getOrCreate "KR" "005930" "toss_openapi" none none
        (some (.dict [("tradingStatus", status)]))).1
    marketBars := (upsertBars Table.empty [oneBar]).1
    orderbookSnapshots := { rows := [oneLevel], unique := List.nodup_singleton _ } }

def haltFlag : RawFlagFilter where
  fieldPath := "tradingStatus"
  failValues := { items := [.str "HALTED"], hashable := by simp [PyValue.isHashable] }

/-- The flag filter alone. -/
def haltFilter : ShippedPipeline where
  config :=
    { timeframe := "1d", lookbackDays := 1, newsLookbackDays := 1, disclosureLookbackDays := 1 }
  universeFilters := [.rawFlag haltFlag]
  eventScanners := []
  strategyRuleSet := none
  dataSource := "toss_openapi"

theorem isNumeric_ofInt {n : Int} (h : n.natAbs ≤ 10 ^ 6) : IsNumeric (.ofInt n) := by
  refine ⟨by decide, ?_⟩
  have hcast : (n.natAbs : ℚ) ≤ 10 ^ (6 : Int) := by exact_mod_cast h
  rw [zpow_zero, mul_one]
  exact hcast.trans (zpow_le_zpow_right₀ (by norm_num) (by norm_num))

theorem numericDatabase_listedWith (status : PyValue) : NumericDatabase (listedWith status) where
  bars row hrow := by
    rw [List.mem_singleton.mp hrow]
    constructor <;> exact isNumeric_ofInt (by decide)
  barCount := by
    show 1 < 10 ^ 13
    norm_num
  orderbooks snapshot hsnapshot := by
    rw [List.mem_singleton.mp hsnapshot]
    refine ⟨⟨nofun, by norm_num [oneLevel]⟩, ⟨fun level hlevel => ?_, by norm_num [oneLevel]⟩⟩
    rw [List.mem_singleton.mp hlevel]
    exact ⟨.ofInt 10, rfl, isNumeric_ofInt (by decide)⟩

/-- The row of the instrument. -/
def listedRow (status : PyValue) : InstrumentRow :=
  { id := 1, exchange := "KR", symbol := "005930", name := none, currency := none
    source := "toss_openapi", rawPayload := some (.dict [("tradingStatus", status)]) }

theorem flag_listedRow (status : PyValue) : haltFlag.flag (listedRow status) = status := rfl

theorem mem_listAll_listedWith (status : PyValue) (instrument : InstrumentRow) :
    instrument ∈ listAll stableMarket (listedWith status).instruments haltFilter.config.exchange ↔
      instrument = listedRow status := by
  have hrows : (listedWith status).instruments.table.rows = [listedRow status] := rfl
  rw [listAll, OrderBy.mem_arrange_iff, hrows]
  simp [haltFilter]

theorem haltFilter_scans_text :
    haltFilter.toPipeline.ScansAll stableMarket (fun _ => Engine.stable)
      (listedWith (.str "HALTED")) 0 := by
  refine (scansAll_iff_answers haltFilter stableMarket _ (numericDatabase_listedWith _) 0).mpr ?_
  intro instrument hinstrument
  rw [mem_listAll_listedWith] at hinstrument
  subst hinstrument
  refine ⟨by decide, ?_, fun _ _ _ => by decide, fun _ _ _ _ _ _ hplugin => ?_,
    fun _ _ _ _ _ _ _ _ => nofun⟩
  · intro bars _ filter hfilter
    rw [List.mem_singleton.mp hfilter]
    show (haltFlag.flag (listedRow _)).isHashable = true
    rw [flag_listedRow]
    rfl
  · cases hplugin

/-- A list at the path of the flag loses the scan. -/
theorem haltFilter_loses_list :
    NumericDatabase (listedWith (.list [.str "HALTED"])) ∧
      ¬ haltFilter.toPipeline.ScansAll stableMarket (fun _ => Engine.stable)
        (listedWith (.list [.str "HALTED"])) 0 := by
  refine ⟨numericDatabase_listedWith _, ?_⟩
  rw [ScannerPipeline.scansAll_iff_exists]
  intro hscans
  have hscan := hscans (listedRow (.list [.str "HALTED"])) ((mem_listAll_listedWith _ _).mpr rfl)
  have hanswers := (ShippedPipeline.exists_scanInstrument_iff_answers
    (numericDatabase_listedWith _)).mp hscan
  obtain ⟨bars, hbars⟩ : ∃ bars, haltFilter.toPipeline.readBars Engine.stable _ _ 0 = .ok bars :=
    exists_readBars_iff.mpr hanswers.barsWindow
  have hflag : (haltFlag.flag (listedRow _)).isHashable = true :=
    hanswers.filters bars hbars _ List.mem_cons_self
  rw [flag_listedRow] at hflag
  cases hflag

end Scanners
end QuantPlatform
