import QuantPlatform.Python.DecimalOrder
import QuantPlatform.Scanners.Totality

namespace QuantPlatform
namespace Scanners

open Db Relational

/-- A lower bound, or none, is not above another. -/
def LowerBound (wide narrow : Option Decimal) : Prop :=
  ∀ bound, wide = some bound → ∃ bound', narrow = some bound' ∧ bound.AtMost bound'

/-- An upper bound, or none, is not below another. -/
def UpperBound (wide narrow : Option Decimal) : Prop :=
  ∀ bound, wide = some bound → ∃ bound', narrow = some bound' ∧ bound'.AtMost bound

/-- The second filter lets through what the first does, by its configuration. -/
def ShippedFilter.Narrows : ShippedFilter → ShippedFilter → Prop
  | .liquidity narrow, .liquidity wide => wide.minTurnoverValue.AtMost narrow.minTurnoverValue
  | .priceRange narrow, .priceRange wide =>
      LowerBound wide.minPrice narrow.minPrice ∧ UpperBound wide.maxPrice narrow.maxPrice
  | .rawFlag narrow, .rawFlag wide =>
      narrow.fieldPath = wide.fieldPath ∧ wide.failValues.items ⊆ narrow.failValues.items ∧
        (narrow.treatUnknownAsPass = true → wide.treatUnknownAsPass = true)
  | _, _ => False

/-- The filter returns and lets the instrument through. -/
def ShippedFilter.Lets (data : UniverseFilterInput) (filter : ShippedFilter) : Prop :=
  ∃ result, filter.toUniverseFilter.evaluate data = .ok result ∧ result.passed = true

section Filters

variable {data : UniverseFilterInput}

theorem lets_liquidity_iff (filter : LiquidityFilter) :
    (ShippedFilter.liquidity filter).Lets data ↔ data.recentBars.isEmpty = false ∧
      ∃ average, averageTurnover data.recentBars = .ok average ∧
        average.ge filter.minTurnoverValue = .ok true := by
  show (∃ result, filter.evaluate data = .ok result ∧ result.passed = true) ↔ _
  unfold LiquidityFilter.evaluate
  by_cases hempty : data.recentBars.isEmpty = true
  · rw [if_pos hempty, hempty]
    constructor
    · rintro ⟨_, ⟨⟩, ⟨⟩⟩
    · rintro ⟨⟨⟩, _⟩
  · rw [if_neg hempty]
    simp only [Raise.bind_eq_ok_iff]
    constructor
    · rintro ⟨_, ⟨average, haverage, passed, hpassed, ⟨⟩⟩, rfl⟩
      exact ⟨by simpa using hempty, average, haverage, hpassed⟩
    · rintro ⟨_, average, haverage, hpassed⟩
      exact ⟨_, ⟨average, haverage, true, hpassed, rfl⟩, rfl⟩

theorem lets_priceRange_iff (filter : PriceRangeFilter) :
    (ShippedFilter.priceRange filter).Lets data ↔
      ∃ bar, data.recentBars.getLast? = some bar ∧
        beyond Decimal.lt bar.closePrice filter.minPrice = .ok false ∧
        beyond Decimal.gt bar.closePrice filter.maxPrice = .ok false := by
  show (∃ result, filter.evaluate data = .ok result ∧ result.passed = true) ↔ _
  unfold PriceRangeFilter.evaluate
  cases data.recentBars.getLast? with
  | none =>
    constructor
    · rintro ⟨_, ⟨⟩, ⟨⟩⟩
    · rintro ⟨_, ⟨⟩, _⟩
  | some bar =>
    simp only [Raise.bind_eq_ok_iff, Option.some.injEq, exists_eq_left']
    constructor
    · rintro ⟨_, ⟨below, hbelow, above, habove, ⟨⟩⟩, htrue⟩
      simp only [Bool.and_eq_true, Bool.not_eq_true'] at htrue
      exact ⟨htrue.1 ▸ hbelow, htrue.2 ▸ habove⟩
    · rintro ⟨hbelow, habove⟩
      exact ⟨_, ⟨false, hbelow, false, habove, rfl⟩, rfl⟩

theorem LowerBound.beyond {wide narrow : Option Decimal} (h : LowerBound wide narrow)
    {price : Decimal} (hnarrow : beyond Decimal.lt price narrow = .ok false) :
    beyond Decimal.lt price wide = .ok false := by
  cases wide with
  | none => rfl
  | some bound =>
    obtain ⟨bound', rfl, hle⟩ := h bound rfl
    exact hle.not_lt hnarrow

theorem UpperBound.beyond {wide narrow : Option Decimal} (h : UpperBound wide narrow)
    {price : Decimal} (hnarrow : beyond Decimal.gt price narrow = .ok false) :
    beyond Decimal.gt price wide = .ok false := by
  cases wide with
  | none => rfl
  | some bound =>
    obtain ⟨bound', rfl, hle⟩ := h bound rfl
    exact hle.not_gt hnarrow

/-- Something stands at the path of the filter. -/
def RawFlagFilter.Finds (filter : RawFlagFilter) (instrument : InstrumentRow) : Prop :=
  (instrument.rawPayload.getD .none).isTruthy = true ∧ filter.flag instrument ≠ .none

theorem passed_missing (filter : RawFlagFilter) (what : String) :
    (filter.missing what).passed = filter.treatUnknownAsPass := by
  unfold RawFlagFilter.missing
  cases filter.treatUnknownAsPass with
  | true => rfl
  | false => rfl

theorem lets_missing_iff (filter : RawFlagFilter) (what : String) :
    (∃ result, (Except.ok (filter.missing what) : Except Exn UniverseFilterResult) = .ok result ∧
      result.passed = true) ↔ filter.treatUnknownAsPass = true := by
  rw [← passed_missing filter what]
  constructor
  · rintro ⟨_, ⟨⟩, hpassed⟩
    exact hpassed
  · exact fun h => ⟨_, rfl, h⟩

theorem lets_rawFlag_iff (filter : RawFlagFilter) :
    (ShippedFilter.rawFlag filter).Lets data ↔
      filter.Finds data.instrument ∧
          filter.failValues.contains (filter.flag data.instrument) = .ok false ∨
        ¬ filter.Finds data.instrument ∧ filter.treatUnknownAsPass = true := by
  show (∃ result, filter.evaluate data = .ok result ∧ result.passed = true) ↔ _
  unfold RawFlagFilter.evaluate RawFlagFilter.Finds
  by_cases htruthy : (data.instrument.rawPayload.getD .none).isTruthy = true
  · rw [if_pos htruthy]
    by_cases hnone : filter.flag data.instrument = .none
    · simp only [hnone, lets_missing_iff]
      simp
    · split
      · next hflag => exact absurd hflag hnone
      · simp only [Raise.bind_eq_ok_iff]
        constructor
        · rintro ⟨_, ⟨found, hfound, ⟨⟩⟩, hpassed⟩
          refine Or.inl ⟨⟨htruthy, hnone⟩, ?_⟩
          rw [hfound]
          exact congrArg _ (by simpa using hpassed)
        · rintro (⟨_, hcontains⟩ | ⟨hmissing, _⟩)
          · exact ⟨_, ⟨false, hcontains, rfl⟩, rfl⟩
          · exact absurd ⟨htruthy, hnone⟩ hmissing
  · rw [if_neg htruthy, lets_missing_iff]
    simp [htruthy]

theorem contains_false_of_subset {narrow wide : FrozenSet} (h : wide.items ⊆ narrow.items)
    {value : PyValue} (hnarrow : narrow.contains value = .ok false) :
    wide.contains value = .ok false := by
  unfold FrozenSet.contains at hnarrow ⊢
  split_ifs at hnarrow with hhash
  rw [if_pos hhash]
  have hnone : narrow.items.any value.same = false := Except.ok.inj hnarrow
  rw [List.any_eq_false] at hnone
  exact congrArg _ (List.any_eq_false.mpr fun item hitem => hnone item (h hitem))

theorem ShippedFilter.Narrows.lets {narrow wide : ShippedFilter} (h : narrow.Narrows wide)
    (hlets : narrow.Lets data) : wide.Lets data := by
  cases narrow with
  | liquidity narrow =>
    cases wide with
    | liquidity wide =>
      obtain ⟨hbars, average, haverage, hge⟩ := (lets_liquidity_iff narrow).mp hlets
      exact (lets_liquidity_iff wide).mpr ⟨hbars, average, haverage, Decimal.AtMost.ge h hge⟩
    | priceRange | rawFlag => cases h
  | priceRange narrow =>
    cases wide with
    | priceRange wide =>
      obtain ⟨bar, hbar, hbelow, habove⟩ := (lets_priceRange_iff narrow).mp hlets
      exact (lets_priceRange_iff wide).mpr
        ⟨bar, hbar, LowerBound.beyond h.1 hbelow, UpperBound.beyond h.2 habove⟩
    | liquidity | rawFlag => cases h
  | rawFlag narrow =>
    cases wide with
    | rawFlag wide =>
      obtain ⟨hpath, hvalues, hunknown⟩ := h
      have hflag : narrow.flag data.instrument = wide.flag data.instrument := by
        unfold RawFlagFilter.flag RawFlagFilter.path
        rw [hpath]
      rw [lets_rawFlag_iff, RawFlagFilter.Finds, hflag] at hlets
      rw [lets_rawFlag_iff, RawFlagFilter.Finds]
      rcases hlets with ⟨hfinds, hcontains⟩ | ⟨hmissing, htreat⟩
      · exact Or.inl ⟨hfinds, contains_false_of_subset hvalues hcontains⟩
      · exact Or.inr ⟨hmissing, hunknown htreat⟩
    | liquidity | priceRange => cases h

end Filters

/-! ## Plugins -/

/-- The first plugin asks for more of the same observation. -/
def ShippedPlugin.Raises : ShippedPlugin → ShippedPlugin → Prop
  | .priceGap high, .priceGap low =>
      high.name = low.name ∧ high.market = low.market ∧ low.minGapRatio.AtMost high.minGapRatio
  | .abnormalVolume high, .abnormalVolume low =>
      high.name = low.name ∧ high.market = low.market ∧
        low.minVolumeMultiple.AtMost high.minVolumeMultiple
  | .volatilitySpike high, .volatilitySpike low =>
      high.name = low.name ∧ high.market = low.market ∧
        low.minRangeRatio.AtMost high.minRangeRatio
  | .newsOccurrence high, .newsOccurrence low =>
      high.name = low.name ∧ high.market = low.market ∧ low.minCount ≤ high.minCount
  | .disclosureOccurrence high, .disclosureOccurrence low =>
      high.name = low.name ∧ high.market = low.market ∧ low.minCount ≤ high.minCount
  | .orderbookImbalance high, .orderbookImbalance low =>
      high.name = low.name ∧ high.market = low.market ∧
        low.minImbalanceRatio.AtMost high.minImbalanceRatio
  | _, _ => False

/-- The detections observe the same, and the second detects what the first does. -/
structure Covers (d d' : EventDetection) : Prop where
  eventName : d.eventName = d'.eventName
  observedValue : d.observedValue = d'.observedValue
  detected : d.detected = true → d'.detected = true

/-- The second plugin runs where the first does, and its detections cover the first's. -/
structure PluginCovers (high low : EventScannerPlugin) : Prop where
  market : high.market = low.market
  detect : ∀ input d, high.detect input = .ok d → ∃ d', low.detect input = .ok d' ∧ Covers d d'

theorem any_detected_of_covers {found found' : List EventDetection}
    (h : List.Forall₂ Covers found found') (hany : found.any EventDetection.detected = true) :
    found'.any EventDetection.detected = true := by
  induction h with
  | nil => exact hany
  | @cons d d' found found' hd _ ih =>
    rw [List.any_cons, Bool.or_eq_true] at hany ⊢
    exact hany.imp hd.detected ih

/-- A fold over lists whose elements it does not tell apart. -/
theorem foldl_eq_of_forall₂ {α β : Type} {R : α → α → Prop} {f : β → α → β}
    (hf : ∀ b a a', R a a' → f b a = f b a') {xs ys : List α} (h : List.Forall₂ R xs ys) (b : β) :
    xs.foldl f b = ys.foldl f b := by
  induction h generalizing b with
  | nil => rfl
  | @cons x y xs ys hxy _ ih => rw [List.foldl_cons, List.foldl_cons, hf b x y hxy, ih]

/-- What the conditions see is what was observed, detected or not. -/
theorem values_buildFeatureSet {pipeline pipeline' : ScannerPipeline} {instrument : InstrumentRow}
    {bars : List MarketBarRow} {asOf : Instant} {found found' : List EventDetection}
    (h : List.Forall₂ Covers found found') :
    (pipeline.buildFeatureSet instrument bars found asOf).values =
      (pipeline'.buildFeatureSet instrument bars found' asOf).values := by
  refine foldl_eq_of_forall₂ (fun values d d' hd => ?_) h _
  simp only [hd.eventName, hd.observedValue]

theorem covers_detectRatio {name name' label : String} {market market' : Option String}
    {high low : Decimal} {observe : Except Exn Observation}
    (h : name = name' ∧ market = market' ∧ low.AtMost high) {d : EventDetection}
    (hdetect : detectRatio name market high label observe = .ok d) :
    ∃ d', detectRatio name' market' low label observe = .ok d' ∧ Covers d d' := by
  obtain ⟨rfl, rfl, hle⟩ := h
  unfold detectRatio at hdetect ⊢
  obtain ⟨observation, hobserve, hrest⟩ := Raise.bind_eq_ok_iff.mp hdetect
  rw [hobserve]
  cases observation with
  | error reason =>
    cases hrest
    exact ⟨_, rfl, rfl, rfl, id⟩
  | ok ratio =>
    obtain ⟨detected, hge, hresult⟩ := Raise.bind_eq_ok_iff.mp hrest
    cases hresult
    obtain ⟨detected', hge', hcovers⟩ := hle.exists_ge hge
    exact ⟨_, Raise.bind_eq_ok_iff.mpr ⟨.ok ratio, rfl,
      Raise.bind_eq_ok_iff.mpr ⟨detected', hge', rfl⟩⟩, rfl, rfl, hcovers⟩

theorem covers_detectCount {name name' label : String} {market market' : Option String}
    {low high : Int} {count : Nat} (h : name = name' ∧ market = market' ∧ low ≤ high)
    {d : EventDetection}
    (hdetect : (.ok (detectCount name market high label count) : Except Exn _) = .ok d) :
    ∃ d', (.ok (detectCount name' market' low label count) : Except Exn _) = .ok d' ∧
      Covers d d' := by
  obtain ⟨rfl, rfl, hle⟩ := h
  cases hdetect
  exact ⟨_, rfl, rfl, rfl, fun hhigh => decide_eq_true (hle.trans (of_decide_eq_true hhigh))⟩

theorem ShippedPlugin.Raises.covers {high low : ShippedPlugin} (h : high.Raises low)
    {input : EventScanInput} {d : EventDetection} (hdetect : high.toPlugin.detect input = .ok d) :
    ∃ d', low.toPlugin.detect input = .ok d' ∧ Covers d d' := by
  cases high with
  | priceGap high =>
    cases low with
    | priceGap low => exact covers_detectRatio h hdetect
    | _ => cases h
  | abnormalVolume high =>
    cases low with
    | abnormalVolume low => exact covers_detectRatio h hdetect
    | _ => cases h
  | volatilitySpike high =>
    cases low with
    | volatilitySpike low => exact covers_detectRatio h hdetect
    | _ => cases h
  | newsOccurrence high =>
    cases low with
    | newsOccurrence low => exact covers_detectCount h hdetect
    | _ => cases h
  | disclosureOccurrence high =>
    cases low with
    | disclosureOccurrence low => exact covers_detectCount h hdetect
    | _ => cases h
  | orderbookImbalance high =>
    cases low with
    | orderbookImbalance low => exact covers_detectRatio h hdetect
    | _ => cases h

theorem ShippedPlugin.Raises.market {high low : ShippedPlugin} (h : high.Raises low) :
    high.toPlugin.market = low.toPlugin.market := by
  cases high <;> cases low <;> first | exact h.2.1 | cases h

/-- The first condition asks for more of the same feature. -/
structure StrategyCondition.Sharpens (sharp blunt : StrategyCondition) : Prop where
  field : sharp.field = blunt.field
  comparator : sharp.comparator = blunt.comparator
  least : blunt.comparator = .gt ∨ blunt.comparator = .gte →
    blunt.threshold.AtMost sharp.threshold
  most : blunt.comparator = .lt ∨ blunt.comparator = .lte →
    sharp.threshold.AtMost blunt.threshold
  same : blunt.comparator = .eq ∨ blunt.comparator = .neq → sharp.threshold = blunt.threshold

theorem StrategyCondition.Sharpens.passes {sharp blunt : StrategyCondition}
    (h : sharp.Sharpens blunt) {featureSet : FeatureSet}
    (hpasses : StrategyScanner.Passes featureSet sharp) :
    StrategyScanner.Passes featureSet blunt := by
  obtain ⟨observed, hget, hcompare⟩ := hpasses
  rw [h.field] at hget
  rw [h.comparator] at hcompare
  refine ⟨observed, hget, ?_⟩
  cases hcomparator : blunt.comparator with
  | gt =>
    rw [hcomparator] at hcompare
    exact (h.least (Or.inl hcomparator)).gt hcompare
  | gte =>
    rw [hcomparator] at hcompare
    exact (h.least (Or.inr hcomparator)).ge hcompare
  | lt =>
    rw [hcomparator] at hcompare
    exact (h.most (Or.inl hcomparator)).lt hcompare
  | lte =>
    rw [hcomparator] at hcompare
    exact (h.most (Or.inr hcomparator)).le hcompare
  | eq =>
    rw [hcomparator, h.same (Or.inl hcomparator)] at hcompare
    exact hcompare
  | neq =>
    rw [hcomparator, h.same (Or.inr hcomparator)] at hcompare
    exact hcompare

/-- Every condition of the wider rule set is sharpened by one of the tighter one. -/
def SharpensRules (tight wide : Option StrategyRuleSet) : Prop :=
  ∀ rules, wide = some rules → ∃ rules', tight = some rules' ∧
    ∀ condition ∈ rules.conditions, ∃ condition' ∈ rules'.conditions,
      condition'.Sharpens condition

/-! ## Pipelines -/

/-- The first pipeline reads the same, on the wider one's markets, and asks for no less. -/
structure ShippedPipeline.Tightens (tight wide : ShippedPipeline) : Prop where
  timeframe : tight.config.timeframe = wide.config.timeframe
  lookbackDays : tight.config.lookbackDays = wide.config.lookbackDays
  newsLookbackDays : tight.config.newsLookbackDays = wide.config.newsLookbackDays
  disclosureLookbackDays :
    tight.config.disclosureLookbackDays = wide.config.disclosureLookbackDays
  exchange : wide.config.exchange = none ∨ tight.config.exchange = wide.config.exchange
  filters : ∀ filter ∈ wide.universeFilters, ∃ filter' ∈ tight.universeFilters,
    filter'.Narrows filter
  plugins : List.Forall₂ ShippedPlugin.Raises tight.eventScanners wide.eventScanners
  rules : SharpensRules tight.strategyRuleSet wide.strategyRuleSet

namespace ScannerPipeline

variable {pipeline : ScannerPipeline} {engine : Engine} {db : Database}
  {instrument : InstrumentRow} {asOf : Instant}

/-- Rules that pass were evaluated. -/
theorem exists_evaluateRules_of_passes {featureSet : FeatureSet}
    (h : pipeline.PassesRules featureSet) :
    ∃ result, pipeline.evaluateRules featureSet = .ok result := by
  unfold evaluateRules
  cases hrules : pipeline.strategyRuleSet with
  | none => exact ⟨none, rfl⟩
  | some rules =>
    refine Raise.exists_bind_pure_iff.mpr (Raise.exists_bind_pure_iff.mpr ?_)
    refine Raise.exists_mapM_eq_ok fun condition hcondition => ?_
    obtain ⟨result, hresult, _⟩ :=
      (StrategyScanner.passed_evaluateCondition_iff _ _).mpr (h rules hrules condition hcondition)
    exact ⟨result, hresult⟩

/-- A qualified candidate passed every stage. -/
theorem qualifies_iff :
    (∃ c, pipeline.scanInstrument engine db instrument asOf = .ok c ∧ c.qualified = true) ↔
      ∃ bars, pipeline.readBars engine db instrument asOf = .ok bars ∧
        pipeline.PassesUniverse instrument bars ∧
        ∃ input found, pipeline.readEventInput engine db instrument asOf bars = .ok input ∧
          pipeline.detections instrument input = .ok found ∧
          ((pipeline.applicableScanners instrument).isEmpty = true ∨
            found.any EventDetection.detected = true) ∧
          pipeline.PassesRules (pipeline.buildFeatureSet instrument bars found asOf) := by
  constructor
  · rintro ⟨c, hscan, hqualified⟩
    obtain ⟨bars, results, hbars, hresults, hends⟩ := scanInstrument_cases hscan
    rcases hends with ⟨_, rfl⟩ | ⟨hpassed, input, found, hinput, hfound, hends⟩
    · cases hqualified
    rcases hends with ⟨_, _, rfl⟩ | ⟨hreached, result, hresult, rfl⟩
    · cases hqualified
    · exact ⟨bars, hbars, (passesUniverse_iff hresults).mpr hpassed, input, found, hinput, hfound,
        hreached, (rulesPassed_iff hresult).mp hqualified⟩
  · rintro ⟨bars, hbars, huniverse, input, found, hinput, hfound, hreached, hrules⟩
    obtain ⟨results, hresults⟩ : ∃ results, pipeline.universeResults instrument bars = .ok results :=
      Raise.exists_mapM_eq_ok fun f hf => (huniverse f hf).imp fun _ h => h.1
    have hpassed := (passesUniverse_iff hresults).mp huniverse
    obtain ⟨result, hresult⟩ := exists_evaluateRules_of_passes hrules
    obtain ⟨c, hscan⟩ := exists_scanInstrument_iff.mpr ⟨bars, results, hbars, hresults,
      fun _ => ⟨input, found, hinput, hfound, fun _ => ⟨result, hresult⟩⟩⟩
    refine ⟨c, hscan, ?_⟩
    -- The stages are functions, so the scan went through the ones found.
    obtain ⟨bars', results', hbars', hresults', hends⟩ := scanInstrument_cases hscan
    cases hbars.symm.trans hbars'
    cases hresults.symm.trans hresults'
    rcases hends with ⟨hfailed, _⟩ | ⟨_, input', found', hinput', hfound', hends⟩
    · rw [hpassed] at hfailed
      cases hfailed
    cases hinput.symm.trans hinput'
    cases hfound.symm.trans hfound'
    rcases hends with ⟨hsome, hquiet, _⟩ | ⟨_, result', hresult', rfl⟩
    · rw [hsome, hquiet] at hreached
      simp at hreached
    · exact (rulesPassed_iff hresult').mpr hrules

end ScannerPipeline

namespace ShippedPipeline

section Tightened

variable {tight wide : ShippedPipeline} (h : tight.Tightens wide) {engine : Engine}
  {db : Database} {instrument : InstrumentRow} {asOf : Instant}

include h

theorem Tightens.readBars : wide.toPipeline.readBars engine db instrument asOf =
    tight.toPipeline.readBars engine db instrument asOf := by
  unfold ScannerPipeline.readBars toPipeline
  rw [h.lookbackDays, h.timeframe]

theorem Tightens.readEventInput (bars : List MarketBarRow) :
    wide.toPipeline.readEventInput engine db instrument asOf bars =
      tight.toPipeline.readEventInput engine db instrument asOf bars := by
  unfold ScannerPipeline.readEventInput toPipeline
  rw [h.newsLookbackDays, h.disclosureLookbackDays]

theorem Tightens.passesUniverse {bars : List MarketBarRow}
    (huniverse : tight.toPipeline.PassesUniverse instrument bars) :
    wide.toPipeline.PassesUniverse instrument bars := by
  intro f hf
  obtain ⟨filter, hfilter, rfl⟩ := List.mem_map.mp hf
  obtain ⟨filter', hfilter', hnarrows⟩ := h.filters filter hfilter
  exact hnarrows.lets (huniverse _ (List.mem_map_of_mem hfilter'))

theorem Tightens.applicableScanners : List.Forall₂ PluginCovers
    (tight.toPipeline.applicableScanners instrument)
    (wide.toPipeline.applicableScanners instrument) := by
  have hall : List.Forall₂ PluginCovers tight.toPipeline.eventScanners
      wide.toPipeline.eventScanners :=
    List.forall₂_map_left_iff.mpr (List.forall₂_map_right_iff.mpr
      (h.plugins.imp fun high low hraises => ⟨hraises.market, fun _ _ => hraises.covers⟩))
  refine List.rel_filter (fun high low hcovers => ?_) hall
  show ScannerPipeline.applies high instrument = true ↔
    ScannerPipeline.applies low instrument = true
  unfold ScannerPipeline.applies
  rw [hcovers.market]

theorem Tightens.exists_detections {input : EventScanInput} {found : List EventDetection}
    (hfound : tight.toPipeline.detections instrument input = .ok found) :
    ∃ found', wide.toPipeline.detections instrument input = .ok found' ∧
      List.Forall₂ Covers found found' :=
  Raise.exists_mapM_of_forall₂
    (h.applicableScanners.imp fun _ _ hcovers => hcovers.detect input) hfound

theorem Tightens.passesRules {featureSet featureSet' : FeatureSet}
    (hvalues : featureSet.values = featureSet'.values)
    (hrules : tight.toPipeline.PassesRules featureSet) :
    wide.toPipeline.PassesRules featureSet' := by
  intro rules hwide condition hcondition
  obtain ⟨rules', htight, hsharpens⟩ := h.rules rules hwide
  obtain ⟨condition', hcondition', hsharp⟩ := hsharpens condition hcondition
  obtain ⟨observed, hget, hcompare⟩ := hsharp.passes (hrules rules' htight condition' hcondition')
  refine ⟨observed, ?_, hcompare⟩
  unfold FeatureSet.get at hget ⊢
  rw [← hvalues]
  exact hget

/-- Whoever qualifies after a scan was tightened would have qualified before. -/
theorem Tightens.qualifies
    (hqualifies : ∃ c, tight.toPipeline.scanInstrument engine db instrument asOf = .ok c ∧
      c.qualified = true) :
    ∃ c, wide.toPipeline.scanInstrument engine db instrument asOf = .ok c ∧
      c.qualified = true := by
  obtain ⟨bars, hbars, huniverse, input, found, hinput, hfound, hreached, hrules⟩ :=
    ScannerPipeline.qualifies_iff.mp hqualifies
  obtain ⟨found', hfound', hcovers⟩ := h.exists_detections hfound
  refine ScannerPipeline.qualifies_iff.mpr ⟨bars, h.readBars.trans hbars,
    h.passesUniverse huniverse, input, found', (h.readEventInput bars).trans hinput, hfound', ?_,
    h.passesRules (values_buildFeatureSet hcovers) hrules⟩
  rcases hreached with hnone | hany
  · refine Or.inl ?_
    rw [List.isEmpty_iff_length_eq_zero] at hnone ⊢
    rw [← h.applicableScanners.length_eq, hnone]
  · exact Or.inr (any_detected_of_covers hcovers hany)

end Tightened

end ShippedPipeline

/-- Whatever the database holds, a tightened scan qualifies no instrument that the wider scan
of the same data does not. -/
theorem tightened_scan_qualifies_no_more {tight wide : ShippedPipeline} (h : tight.Tightens wide)
    {market market' : OrderBy InstrumentRow byExchangeAndSymbol}
    {engines : InstrumentRow → Engine} {db : Database} {asOf : Instant}
    {candidates candidates' : List Candidate}
    (hwide : wide.toPipeline.scan market engines db asOf = .ok candidates)
    (htight : tight.toPipeline.scan market' engines db asOf = .ok candidates') :
    ∀ c' ∈ candidates', c'.qualified = true →
      ∃ c ∈ candidates, c.instrumentId = c'.instrumentId ∧ c.qualified = true := by
  intro c' hc' hqualified
  obtain ⟨instrument, hinstrument, c₁, hscan', heq⟩ :=
    (Raise.exists_mem_iff_of_mapM htight (· = c')).mp ⟨c', hc', rfl⟩
  rw [heq] at hscan'
  obtain ⟨c, hscan, hc⟩ := h.qualifies ⟨c', hscan', hqualified⟩
  have hlisted : instrument ∈ listAll market db.instruments wide.config.exchange := by
    rw [listAll, OrderBy.mem_arrange_iff, List.mem_filter] at hinstrument ⊢
    refine ⟨hinstrument.1, ?_⟩
    rcases h.exchange with hnone | hsame
    · simp [hnone]
    · exact hsame ▸ hinstrument.2
  obtain ⟨c₀, hmem, heq'⟩ : ∃ c₀ ∈ candidates, c₀ = c :=
    (Raise.exists_mem_iff_of_mapM hwide (· = c)).mpr ⟨instrument, hlisted, c, hscan, rfl⟩
  rw [heq'] at hmem
  refine ⟨c, hmem, ?_, hc⟩
  have hid := ScannerPipeline.identity_of_scanInstrument hscan
  have hid' := ScannerPipeline.identity_of_scanInstrument hscan'
  exact congrArg Prod.fst (hid.trans hid'.symm)

/-- Spikes from a range ratio on, for the plugin and for the rule. -/
def spikesFrom (ratio : Decimal) : ShippedPipeline where
  config := haltFilter.config
  universeFilters := []
  eventScanners := [.volatilitySpike { minRangeRatio := ratio }]
  strategyRuleSet := some
    { strategyId := "spikes"
      strategyVersion := "1"
      conditions :=
        [{ name := "range", field := "volatility_spike", comparator := .gte, threshold := ratio
           description := "" }] }
  dataSource := "toss_openapi"

/-- Spikes from four percent on, of instruments that are not halted. -/
def liveSpikes : ShippedPipeline :=
  { spikesFrom (.finite false 4 (-2)) with universeFilters := haltFilter.universeFilters }

theorem liveSpikes_tightens : liveSpikes.Tightens (spikesFrom (.finite false 3 (-2))) := by
  have hle : Decimal.AtMost (.finite false 3 (-2)) (.finite false 4 (-2)) :=
    ⟨_, _, rfl, rfl, by decide +kernel⟩
  exact
    { timeframe := rfl
      lookbackDays := rfl
      newsLookbackDays := rfl
      disclosureLookbackDays := rfl
      exchange := Or.inl rfl
      filters := nofun
      plugins := .cons ⟨rfl, rfl, hle⟩ .nil
      rules := by
        rintro rules ⟨⟩
        refine ⟨_, rfl, fun condition hcondition => ⟨_, List.mem_cons_self, ?_⟩⟩
        rw [List.mem_singleton.mp hcondition]
        exact ⟨rfl, rfl, fun _ => hle, nofun, nofun⟩ }

/-- A bar with a range of three in 71 qualifies in both. -/
theorem raised_spikes_qualify_no_more :
    ∃ candidates candidates',
      (spikesFrom (.finite false 3 (-2))).toPipeline.scan stableMarket (fun _ => Engine.stable)
        (listedWith (.str "TRADING")) 0 = .ok candidates ∧
      liveSpikes.toPipeline.scan stableMarket (fun _ => Engine.stable)
        (listedWith (.str "TRADING")) 0 = .ok candidates' ∧
      candidates'.map Candidate.qualified = [true] ∧
      ∀ c' ∈ candidates', c'.qualified = true →
        ∃ c ∈ candidates, c.instrumentId = c'.instrumentId ∧ c.qualified = true := by
  obtain ⟨candidates, hwide, _⟩ := Raise.bind_eq_ok_iff.mp (show (do
    let candidates ← (spikesFrom (.finite false 3 (-2))).toPipeline.scan stableMarket
      (fun _ => Engine.stable) (listedWith (.str "TRADING")) 0
    return candidates.map Candidate.qualified) = .ok [true] by decide +kernel)
  obtain ⟨candidates', htight, hqualified⟩ := Raise.bind_eq_ok_iff.mp (show (do
    let candidates ← liveSpikes.toPipeline.scan stableMarket (fun _ => Engine.stable)
      (listedWith (.str "TRADING")) 0
    return candidates.map Candidate.qualified) = .ok [true] by decide +kernel)
  exact ⟨candidates, candidates', hwide, htight, Except.ok.inj hqualified,
    tightened_scan_qualifies_no_more liveSpikes_tightens hwide htight⟩

end Scanners
end QuantPlatform
