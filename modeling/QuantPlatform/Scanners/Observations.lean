import QuantPlatform.Scanners.Totality

namespace QuantPlatform
namespace Scanners

open Db

theorem lookup_setItem (values : List (String × Decimal)) (name : String) (value : Decimal)
    (k : String) :
    (setItem values name value).lookup k = if k = name then some value else values.lookup k := by
  induction values with
  | nil =>
    rw [setItem, List.lookup_cons]
    by_cases hk : k = name
    · simp [hk]
    · have hkname : (k == name) = false := by simpa using hk
      rw [hkname, if_neg hk]
  | cons entry rest ih =>
    obtain ⟨n, v⟩ := entry
    unfold setItem
    by_cases hn : n = name
    · rw [if_pos hn, List.lookup_cons, List.lookup_cons]
      by_cases hk : k = name
      · simp [hk]
      · have hkn : (k == n) = false := by simpa [hn] using hk
        have hkname : (k == name) = false := by simpa using hk
        rw [hkn, hkname, if_neg hk]
    · rw [if_neg hn, List.lookup_cons, List.lookup_cons]
      by_cases hk : k = n
      · have hne : k ≠ name := fun h => hn (hk ▸ h)
        simp [hk, hn]
      · have hkn : (k == n) = false := by simpa using hk
        rw [hkn]
        exact ih

/-- The features after one more detection. -/
def addDetection (values : List (String × Decimal)) (detection : EventDetection) :
    List (String × Decimal) :=
  match detection.observedValue with
  | .decimal d => setItem values detection.eventName d
  | _ => values

theorem lookup_addDetection_of_ne (values : List (String × Decimal)) {detection : EventDetection}
    {k : String} (hk : k ≠ detection.eventName) :
    (addDetection values detection).lookup k = values.lookup k := by
  unfold addDetection
  split
  · rw [lookup_setItem, if_neg hk]
  · rfl

theorem lookup_foldl_of_not_mem {found : List EventDetection} {k : String}
    (hk : k ∉ found.map EventDetection.eventName) (values : List (String × Decimal)) :
    (found.foldl addDetection values).lookup k = values.lookup k := by
  induction found generalizing values with
  | nil => rfl
  | cons detection rest ih =>
    rw [List.map_cons, List.mem_cons, not_or] at hk
    exact (ih hk.2 _).trans (lookup_addDetection_of_ne values hk.1)

/-- The `Decimal` in a value. -/
def decimalValue : PyValue → Option Decimal
  | .decimal d => some d
  | _ => none

/-- Under the name of a detection stands what it observed, if that is a `Decimal`. -/
theorem lookup_foldl_of_mem {found : List EventDetection}
    (hnames : (found.map EventDetection.eventName).Nodup) {detection : EventDetection}
    (hmem : detection ∈ found) {values : List (String × Decimal)}
    (hvalues : values.lookup detection.eventName = none) :
    (found.foldl addDetection values).lookup detection.eventName =
      decimalValue detection.observedValue := by
  induction found generalizing values with
  | nil => cases hmem
  | cons first rest ih =>
    rw [List.map_cons, List.nodup_cons] at hnames
    rw [List.foldl_cons]
    rcases List.mem_cons.mp hmem with rfl | hrest
    · rw [lookup_foldl_of_not_mem hnames.1]
      unfold addDetection decimalValue
      split
      · rw [lookup_setItem, if_pos rfl]
      · exact hvalues
    · refine ih hnames.2 hrest ?_
      rw [lookup_addDetection_of_ne values]
      · exact hvalues
      · intro hsame
        exact hnames.1 (hsame ▸ List.mem_map_of_mem hrest)

namespace ShippedPlugin

/-- The plugin counts. -/
def counts : ShippedPlugin → Bool
  | newsOccurrence _ => true
  | disclosureOccurrence _ => true
  | _ => false

theorem eventName_of_detectRatio {name : String} {market : Option String} {threshold : Decimal}
    {label : String} {observe : Except Exn Observation} {detection : EventDetection}
    (h : detectRatio name market threshold label observe = .ok detection) :
    detection.eventName = name ∧
      (detection.observedValue = .none ∨ ∃ d, detection.observedValue = .decimal d) := by
  obtain ⟨observation, _, hrest⟩ := Raise.bind_eq_ok_iff.mp h
  cases observation with
  | error reason =>
    cases hrest
    exact ⟨rfl, .inl rfl⟩
  | ok ratio =>
    obtain ⟨detected, _, hresult⟩ := Raise.bind_eq_ok_iff.mp hrest
    cases hresult
    exact ⟨rfl, .inr ⟨ratio, rfl⟩⟩

/-- What a plugin observes: an int if it counts, and a `Decimal` or nothing if not. -/
theorem detect_cases (plugin : ShippedPlugin) {input : EventScanInput} {detection : EventDetection}
    (h : plugin.toPlugin.detect input = .ok detection) :
    detection.eventName = plugin.toPlugin.name ∧
      ((plugin.counts = true ∧ ∃ n : Nat, detection.observedValue = .int n) ∨
        (plugin.counts = false ∧
          (detection.observedValue = .none ∨ ∃ d, detection.observedValue = .decimal d))) := by
  cases plugin with
  | priceGap scanner => exact (eventName_of_detectRatio h).imp_right fun h => .inr ⟨rfl, h⟩
  | abnormalVolume scanner => exact (eventName_of_detectRatio h).imp_right fun h => .inr ⟨rfl, h⟩
  | volatilitySpike scanner => exact (eventName_of_detectRatio h).imp_right fun h => .inr ⟨rfl, h⟩
  | orderbookImbalance scanner =>
    exact (eventName_of_detectRatio h).imp_right fun h => .inr ⟨rfl, h⟩
  | newsOccurrence scanner =>
    cases h
    exact ⟨rfl, .inl ⟨rfl, _, rfl⟩⟩
  | disclosureOccurrence scanner =>
    cases h
    exact ⟨rfl, .inl ⟨rfl, _, rfl⟩⟩

end ShippedPlugin

/-! ## Conditions on observations -/

/-- The number in a value. -/
def numericValue : PyValue → Option Decimal
  | .decimal d => some d
  | .int n => some (.ofInt n)
  | _ => none

/-- The condition is evaluated against what was observed, and is missing only if nothing was. -/
structure SeesObserved (featureSet : FeatureSet) (observed : PyValue)
    (condition : StrategyCondition) : Prop where
  against : ∀ v, numericValue observed = some v → featureSet.get condition.field = some v
  passes : ∀ v, numericValue observed = some v →
    ((∃ result, StrategyScanner.evaluateCondition featureSet condition = .ok result ∧
        result.passed = true) ↔ condition.comparator.func v condition.threshold = .ok true)
  missing : (∃ result, StrategyScanner.evaluateCondition featureSet condition = .ok result ∧
    result.observedValue = none) → observed = .none

theorem seesObserved_iff {featureSet : FeatureSet} {observed : PyValue}
    {condition : StrategyCondition}
    (hget : featureSet.get condition.field = decimalValue observed) :
    SeesObserved featureSet observed condition ↔
      decimalValue observed = numericValue observed ∧
        (decimalValue observed = none → observed = .none) := by
  constructor
  · intro hsees
    constructor
    · cases hnumeric : numericValue observed with
      | some v => exact hget.symm.trans (hsees.against v hnumeric)
      | none =>
        cases observed with
        | decimal d => cases hnumeric
        | _ => rfl
    · intro hnone
      rw [hnone] at hget
      refine hsees.missing ?_
      unfold StrategyScanner.evaluateCondition
      rw [hget]
      exact ⟨_, rfl, rfl⟩
  · rintro ⟨hsame, hmissing⟩
    refine ⟨fun v hv => hget.trans (hsame.trans hv), fun v hv => ?_, ?_⟩
    · rw [StrategyScanner.passed_evaluateCondition_iff, StrategyScanner.Passes, hget, hsame, hv]
      simp
    · rintro ⟨result, hresult, hnone⟩
      refine hmissing ?_
      rw [← hget]
      unfold StrategyScanner.evaluateCondition at hresult
      cases hfield : featureSet.get condition.field with
      | none => rfl
      | some v =>
        rw [hfield] at hresult
        obtain ⟨passed, _, hresult⟩ := Raise.bind_eq_ok_iff.mp hresult
        cases hresult
        cases hnone

namespace ShippedPipeline

variable (shipped : ShippedPipeline) (instrument : InstrumentRow)

def applicablePlugins : List ShippedPlugin :=
  shipped.eventScanners.filter fun plugin => ScannerPipeline.applies plugin.toPlugin instrument

/-- The names of the applicable plugins differ from each other and from those of the bar. -/
structure DistinctNames : Prop where
  nodup : ((shipped.applicablePlugins instrument).map fun plugin => plugin.toPlugin.name).Nodup
  bar : ∀ plugin ∈ shipped.applicablePlugins instrument,
    plugin.toPlugin.name ≠ "close_price" ∧ plugin.toPlugin.name ≠ "volume"

theorem applicableScanners_toPipeline :
    shipped.toPipeline.applicableScanners instrument =
      (shipped.applicablePlugins instrument).map ShippedPlugin.toPlugin := by
  simp only [ScannerPipeline.applicableScanners, toPipeline, applicablePlugins, List.filter_map]
  rfl

variable {shipped instrument}

/-- The detections carry the names of the plugins. -/
theorem eventNames_of_detections {input : EventScanInput} {found : List EventDetection}
    (hfound : shipped.toPipeline.detections instrument input = .ok found) :
    found.map EventDetection.eventName =
      (shipped.applicablePlugins instrument).map fun plugin => plugin.toPlugin.name := by
  rw [ScannerPipeline.detections, applicableScanners_toPipeline, Raise.mapM_eq_ok_iff,
    List.forall₂_map_left_iff] at hfound
  rw [← List.forall₂_eq_eq_eq, List.forall₂_map_left_iff, List.forall₂_map_right_iff]
  exact hfound.flip.imp fun detection plugin hdetect => (plugin.detect_cases hdetect).1

/-- The features hold what an applicable plugin observed, if it is a `Decimal`. -/
theorem get_buildFeatureSet {input : EventScanInput} {found : List EventDetection}
    (hnames : shipped.DistinctNames instrument)
    (hfound : shipped.toPipeline.detections instrument input = .ok found) {plugin : ShippedPlugin}
    (hplugin : plugin ∈ shipped.applicablePlugins instrument) {detection : EventDetection}
    (hdetect : plugin.toPlugin.detect input = .ok detection) (bars : List MarketBarRow)
    (asOf : Instant) :
    (shipped.toPipeline.buildFeatureSet instrument bars found asOf).get plugin.toPlugin.name =
      decimalValue detection.observedValue := by
  have hname := (plugin.detect_cases hdetect).1
  have hmem : detection ∈ found := by
    have hexists := (Raise.exists_mem_iff_of_mapM hfound (· = detection)).mpr
      ⟨plugin.toPlugin, ?_, detection, hdetect, rfl⟩
    · simpa using hexists
    · rw [applicableScanners_toPipeline]
      exact List.mem_map_of_mem hplugin
  have hnodup : (found.map EventDetection.eventName).Nodup := by
    rw [eventNames_of_detections hfound]
    exact hnames.nodup
  obtain ⟨hclose, hvolume⟩ := hnames.bar plugin hplugin
  rw [← hname]
  refine lookup_foldl_of_mem hnodup hmem ?_
  rw [hname]
  cases bars.getLast? with
  | none => rfl
  | some latest =>
    show (setItem (setItem [] "close_price" latest.closePrice) "volume" latest.volume).lookup _ = _
    rw [lookup_setItem, if_neg hvolume, lookup_setItem, if_neg hclose]
    rfl

/-- A condition sees what the plugins of its field observed exactly when none of them counts. -/
theorem sees_observed_iff {input : EventScanInput} {found : List EventDetection}
    (hnames : shipped.DistinctNames instrument)
    (hfound : shipped.toPipeline.detections instrument input = .ok found)
    (bars : List MarketBarRow) (asOf : Instant) (condition : StrategyCondition) :
    (∀ plugin ∈ shipped.applicablePlugins instrument, plugin.toPlugin.name = condition.field →
        ∀ detection, plugin.toPlugin.detect input = .ok detection →
          SeesObserved (shipped.toPipeline.buildFeatureSet instrument bars found asOf)
            detection.observedValue condition) ↔
      ∀ plugin ∈ shipped.applicablePlugins instrument, plugin.toPlugin.name = condition.field →
        plugin.counts = false := by
  refine forall₂_congr fun plugin hplugin => forall_congr' fun hfield => ?_
  have hget : ∀ detection, plugin.toPlugin.detect input = .ok detection →
      (shipped.toPipeline.buildFeatureSet instrument bars found asOf).get condition.field =
        decimalValue detection.observedValue := by
    intro detection hdetect
    rw [← hfield]
    exact get_buildFeatureSet hnames hfound hplugin hdetect bars asOf
  constructor
  · intro hsees
    have hscanner : plugin.toPlugin ∈ shipped.toPipeline.applicableScanners instrument := by
      rw [applicableScanners_toPipeline]
      exact List.mem_map_of_mem hplugin
    obtain ⟨detection, hdetect⟩ := Raise.exists_mapM_eq_ok_iff.mp ⟨found, hfound⟩ _ hscanner
    have hsame := ((seesObserved_iff (hget detection hdetect)).mp (hsees detection hdetect)).1
    obtain ⟨_, ⟨_, n, hobserved⟩ | ⟨hcounts, _⟩⟩ := plugin.detect_cases hdetect
    · rw [hobserved] at hsame
      cases hsame
    · exact hcounts
  · intro hcounts detection hdetect
    rw [seesObserved_iff (hget detection hdetect)]
    obtain ⟨_, ⟨hcounting, _⟩ | ⟨_, hobserved | ⟨d, hobserved⟩⟩⟩ := plugin.detect_cases hdetect
    · rw [hcounts] at hcounting
      cases hcounting
    · rw [hobserved]
      exact ⟨rfl, fun _ => rfl⟩
    · rw [hobserved]
      exact ⟨rfl, nofun⟩

end ShippedPipeline

/-- A news plugin and a gap plugin. -/
def newsAndGap : ShippedPipeline where
  config :=
    { timeframe := "1d", lookbackDays := 1, newsLookbackDays := 1, disclosureLookbackDays := 1 }
  universeFilters := []
  eventScanners :=
    [.newsOccurrence { minCount := 1 }, .priceGap { minGapRatio := .finite false 3 (-2) }]
  strategyRuleSet := none
  dataSource := "toss_openapi"

def newsArticle : NewsEventRow where
  source := "rss"
  externalId := "n-1"
  eventTime := 0
  availableAt := 0
  ingestedAt := 0
  revision := 1
  headline := "Headline"
  body := none
  relatedSymbols := none

/-- The bar of a day that opens and closes at one price. -/
def flatBar (day : Nat) (price : Decimal) : MarketBarRow where
  instrumentId := 1
  timeframe := "1d"
  eventTime := day
  availableAt := day
  ingestedAt := day
  revision := 1
  openPrice := price
  highPrice := price
  lowPrice := price
  closePrice := price
  volume := .ofInt 10
  currency := none
  source := "toss"

/-- One article, and a day that opens at twice the close of the day before. -/
def articleAndGap : EventScanInput where
  bars := [flatBar 0 (.ofInt 100), flatBar 1 (.ofInt 200)]
  news := [newsArticle]
  disclosures := []
  orderbook := none

def gapFound : EventDetection where
  eventName := "price_gap"
  detected := true
  observedValue := .decimal (.ofInt 1)
  threshold := .decimal (.finite false 3 (-2))
  market := none
  reason := none

/-- What the two plugins detect. -/
def newsAndGapFound : List EventDetection :=
  [detectCount "news_occurrence" none 1 "news" 1, gapFound]

/-- At least one, of a feature. -/
def atLeastOne (field : String) : StrategyCondition where
  name := field
  field := field
  comparator := .gte
  threshold := .ofInt 1
  description := ""

theorem distinctNames_newsAndGap :
    newsAndGap.DistinctNames (listedRow (.str "NORMAL")) where
  nodup := by decide
  bar := by decide

theorem gapScanner_detects :
    ({ minGapRatio := .finite false 3 (-2) } : PriceGapEventScanner).detect articleAndGap =
      .ok gapFound := by
  have hobserve : observeGap articleAndGap.bars = .ok (.ok (.ofInt 1)) := by decide +kernel
  have hge : Decimal.ge (.ofInt 1) (.finite false 3 (-2)) = .ok true := by decide +kernel
  exact Raise.bind_eq_ok_iff.mpr
    ⟨.ok (.ofInt 1), hobserve, Raise.bind_eq_ok_iff.mpr ⟨true, hge, rfl⟩⟩

theorem detections_newsAndGap :
    newsAndGap.toPipeline.detections (listedRow (.str "NORMAL")) articleAndGap =
      .ok newsAndGapFound := by
  refine Raise.mapM_eq_ok_iff.mpr (.cons rfl (.cons ?_ .nil))
  exact gapScanner_detects

/-- A gap of a hundred percent, and a condition that reads it. -/
theorem gap_condition_sees_gap :
    SeesObserved (newsAndGap.toPipeline.buildFeatureSet (listedRow (.str "NORMAL"))
      articleAndGap.bars newsAndGapFound 0) (.decimal (.ofInt 1)) (atLeastOne "price_gap") :=
  (ShippedPipeline.sees_observed_iff distinctNames_newsAndGap detections_newsAndGap _ 0
    (atLeastOne "price_gap")).mpr (by decide) (.priceGap { minGapRatio := .finite false 3 (-2) })
      (List.mem_cons_of_mem _ List.mem_cons_self) rfl gapFound gapScanner_detects

/-- A plugin that counted one article, and a condition on the count that misses it. -/
theorem news_condition_misses_count :
    newsAndGap.toPipeline.detections (listedRow (.str "NORMAL")) articleAndGap =
        .ok newsAndGapFound ∧
      StrategyScanner.evaluateCondition (newsAndGap.toPipeline.buildFeatureSet
          (listedRow (.str "NORMAL")) articleAndGap.bars newsAndGapFound 0)
          (atLeastOne "news_occurrence") =
        .ok { conditionName := "news_occurrence", field := "news_occurrence", passed := false
              observedValue := none, threshold := .ofInt 1
              reason := some "feature 'news_occurrence' not present in FeatureSet" } ∧
      ¬ SeesObserved (newsAndGap.toPipeline.buildFeatureSet (listedRow (.str "NORMAL"))
        articleAndGap.bars newsAndGapFound 0) (.int 1) (atLeastOne "news_occurrence") := by
  refine ⟨detections_newsAndGap, rfl, fun hsees => ?_⟩
  cases hsees.against (.ofInt 1) rfl

end Scanners
end QuantPlatform
