/-
The staged gate, and what qualifies a candidate.

`scanInstrument_cases` says once how a scan of an instrument ends when it
returns: stopped by a universe filter, stopped by the event stage, or carried
through.  The gate as documented opens on a detected event unless no event
plugin is configured at all.  The code opens it whenever no configured plugin
applies to the instrument's exchange, so an instrument no plugin is for passes.
`gate_as_documented_iff` is the exact difference.
-/
import QuantPlatform.Scanners.Pipeline

namespace QuantPlatform
namespace Scanners

open Db Relational

namespace ScannerPipeline

variable (pipeline : ScannerPipeline) (engine : Engine) (db : Database)
  (instrument : InstrumentRow) (asOf : Instant)

/-- The detections of the applicable plugins. -/
def detections (eventInput : EventScanInput) : Except Exn (List EventDetection) :=
  (pipeline.applicableScanners instrument).mapM fun scanner => scanner.detect eventInput

def universeResults (bars : List MarketBarRow) : Except Exn (List UniverseFilterResult) :=
  pipeline.universeFilters.mapM fun f => f.evaluate { instrument, recentBars := bars }

/-- What `qualified` is once the strategy stage has run. -/
def rulesPassed (strategyResult : Option StrategyScanResult) : Bool :=
  match strategyResult with
  | none => true
  | some result => result.passed

variable {pipeline engine db instrument asOf}

theorem scanInstrument_cases {c : Candidate}
    (h : pipeline.scanInstrument engine db instrument asOf = .ok c) :
    ∃ bars results, pipeline.readBars engine db instrument asOf = .ok bars ∧
      pipeline.universeResults instrument bars = .ok results ∧
      ((results.all UniverseFilterResult.passed = false ∧
          c = pipeline.candidate instrument asOf results [] none false) ∨
        results.all UniverseFilterResult.passed = true ∧
          ∃ input found, pipeline.readEventInput engine db instrument asOf bars = .ok input ∧
            pipeline.detections instrument input = .ok found ∧
            (((pipeline.applicableScanners instrument).isEmpty = false ∧
                found.any EventDetection.detected = false ∧
                c = pipeline.candidate instrument asOf results found none false) ∨
              (((pipeline.applicableScanners instrument).isEmpty = true ∨
                  found.any EventDetection.detected = true) ∧
                ∃ result, pipeline.evaluateRules
                    (pipeline.buildFeatureSet instrument bars found asOf) = .ok result ∧
                  c = pipeline.candidate instrument asOf results found result
                    (rulesPassed result)))) := by
  obtain ⟨bars, hbars, h⟩ := Raise.bind_eq_ok_iff.mp h
  obtain ⟨results, hresults, h⟩ := Raise.bind_eq_ok_iff.mp h
  refine ⟨bars, results, hbars, hresults, ?_⟩
  by_cases huniverse : results.all UniverseFilterResult.passed = true
  · rw [if_pos huniverse] at h
    obtain ⟨input, hinput, h⟩ := Raise.bind_eq_ok_iff.mp h
    obtain ⟨found, hfound, h⟩ := Raise.bind_eq_ok_iff.mp h
    refine Or.inr ⟨huniverse, input, found, hinput, hfound, ?_⟩
    by_cases hempty : (pipeline.applicableScanners instrument).isEmpty = true
    · simp only [hempty, if_true] at h
      obtain ⟨result, hresult, h⟩ := Raise.bind_eq_ok_iff.mp h
      exact Or.inr ⟨Or.inl hempty, result, hresult, (Except.ok.inj h).symm⟩
    · simp only [hempty] at h
      by_cases hevent : found.any EventDetection.detected = true
      · simp only [hevent] at h
        obtain ⟨result, hresult, h⟩ := Raise.bind_eq_ok_iff.mp h
        exact Or.inr ⟨Or.inr hevent, result, hresult, (Except.ok.inj h).symm⟩
      · simp only [hevent] at h
        exact Or.inl ⟨by simpa using hempty, by simpa using hevent, (Except.ok.inj h).symm⟩
  · rw [if_neg huniverse] at h
    exact Or.inl ⟨by simpa using huniverse, (Except.ok.inj h).symm⟩

/-! ## The gate as documented -/

variable (pipeline engine db instrument asOf)

def PassesUniverse (bars : List MarketBarRow) : Prop :=
  ∀ f ∈ pipeline.universeFilters,
    ∃ result, f.evaluate { instrument, recentBars := bars } = .ok result ∧ result.passed = true

/-- No event plugin is configured, or one that applies detected an event. -/
def Triggered (eventInput : EventScanInput) : Prop :=
  pipeline.eventScanners = [] ∨
    ∃ scanner ∈ pipeline.eventScanners, applies scanner instrument = true ∧
      ∃ detection, scanner.detect eventInput = .ok detection ∧ detection.detected = true

/-- No rule set is configured, or all of its conditions pass. -/
def PassesRules (featureSet : FeatureSet) : Prop :=
  ∀ ruleSet, pipeline.strategyRuleSet = some ruleSet →
    ∀ condition ∈ ruleSet.conditions, StrategyScanner.Passes featureSet condition

/-- What the documentation says of the candidate of an instrument: when it
qualifies, and which evidence it does not carry. -/
def GateAsDocumented (c : Candidate) : Prop :=
  ∃ bars, pipeline.readBars engine db instrument asOf = .ok bars ∧
    (c.qualified = true ↔
      pipeline.PassesUniverse instrument bars ∧
        ∃ input found, pipeline.readEventInput engine db instrument asOf bars = .ok input ∧
          pipeline.detections instrument input = .ok found ∧
          pipeline.Triggered instrument input ∧
          pipeline.PassesRules (pipeline.buildFeatureSet instrument bars found asOf)) ∧
    (¬ pipeline.PassesUniverse instrument bars → c.eventDetections = [] ∧ c.strategyResult = none) ∧
    (∀ input, pipeline.readEventInput engine db instrument asOf bars = .ok input →
      pipeline.PassesUniverse instrument bars → ¬ pipeline.Triggered instrument input →
        c.strategyResult = none)

/-- The instrument fails a universe filter on the bars it has. -/
def FailsUniverse : Prop :=
  ∃ bars, pipeline.readBars engine db instrument asOf = .ok bars ∧
    ∃ f ∈ pipeline.universeFilters,
      ∃ result, f.evaluate { instrument, recentBars := bars } = .ok result ∧ result.passed = false

variable {pipeline engine db instrument asOf}

theorem passesUniverse_iff {bars : List MarketBarRow} {results : List UniverseFilterResult}
    (h : pipeline.universeResults instrument bars = .ok results) :
    pipeline.PassesUniverse instrument bars ↔
      results.all UniverseFilterResult.passed = true := by
  rw [List.all_eq_true]
  exact (Raise.forall_mem_iff_of_mapM h fun r => r.passed = true).symm

theorem failsUniverse_of {bars : List MarketBarRow} {results : List UniverseFilterResult}
    (hbars : pipeline.readBars engine db instrument asOf = .ok bars)
    (h : pipeline.universeResults instrument bars = .ok results)
    (hfailed : results.all UniverseFilterResult.passed = false) :
    pipeline.FailsUniverse engine db instrument asOf := by
  refine ⟨bars, hbars, (Raise.exists_mem_iff_of_mapM h fun r => r.passed = false).mp ?_⟩
  simpa using hfailed

theorem not_failsUniverse_of {bars : List MarketBarRow}
    (hbars : pipeline.readBars engine db instrument asOf = .ok bars)
    (hpasses : pipeline.PassesUniverse instrument bars) :
    ¬ pipeline.FailsUniverse engine db instrument asOf := by
  intro hfails
  obtain ⟨bars', hbars', f, hf, result, hresult, hfailed⟩ := hfails
  rw [Except.ok.inj (hbars'.symm.trans hbars)] at hresult
  obtain ⟨result', hresult', hpassed⟩ := hpasses f hf
  rw [Except.ok.inj (hresult.symm.trans hresult'), hpassed] at hfailed
  cases hfailed

/-- A detection of an applicable plugin is what triggers, once one is configured. -/
theorem triggered_iff {input : EventScanInput} {found : List EventDetection}
    (h : pipeline.detections instrument input = .ok found) :
    pipeline.Triggered instrument input ↔
      pipeline.eventScanners = [] ∨ found.any EventDetection.detected = true := by
  have hfound := Raise.exists_mem_iff_of_mapM h fun d => d.detected = true
  unfold Triggered
  rw [List.any_eq_true, hfound]
  simp only [applicableScanners, List.mem_filter, and_assoc]

theorem rulesPassed_iff {featureSet : FeatureSet} {result : Option StrategyScanResult}
    (h : pipeline.evaluateRules featureSet = .ok result) :
    rulesPassed result = true ↔ pipeline.PassesRules featureSet := by
  unfold evaluateRules at h
  unfold PassesRules
  cases hrules : pipeline.strategyRuleSet with
  | none =>
    rw [hrules] at h
    rw [← Except.ok.inj h]
    simp [rulesPassed]
  | some ruleSet =>
    rw [hrules] at h
    obtain ⟨scanned, hscanned, h⟩ := Raise.bind_eq_ok_iff.mp h
    rw [← Except.ok.inj h]
    simp only [rulesPassed, Option.some.injEq, forall_eq']
    exact StrategyScanner.passed_evaluate_iff hscanned

theorem gate_stopped_by_universe {bars : List MarketBarRow}
    (hbars : pipeline.readBars engine db instrument asOf = .ok bars)
    (hnot : ¬ pipeline.PassesUniverse instrument bars) (results : List UniverseFilterResult) :
    pipeline.GateAsDocumented engine db instrument asOf
      (pipeline.candidate instrument asOf results [] none false) := by
  refine ⟨bars, hbars, ?_, fun _ => ⟨rfl, rfl⟩, fun _ _ hp => absurd hp hnot⟩
  exact iff_of_false Bool.false_ne_true fun hp => hnot hp.1

section Scanned

variable {bars : List MarketBarRow} {input : EventScanInput}
  (hbars : pipeline.readBars engine db instrument asOf = .ok bars)
  (hpasses : pipeline.PassesUniverse instrument bars)
  (hinput : pipeline.readEventInput engine db instrument asOf bars = .ok input)

include hbars hpasses hinput

theorem gate_stopped_by_events (hnot : ¬ pipeline.Triggered instrument input)
    (results : List UniverseFilterResult) (found : List EventDetection) :
    pipeline.GateAsDocumented engine db instrument asOf
      (pipeline.candidate instrument asOf results found none false) := by
  refine ⟨bars, hbars, ?_, fun hp => absurd hpasses hp, fun _ _ _ _ => rfl⟩
  refine iff_of_false Bool.false_ne_true ?_
  intro hp
  obtain ⟨input', _, hinput', _, ht, _⟩ := hp.2
  rw [Except.ok.inj (hinput'.symm.trans hinput)] at ht
  exact hnot ht

/-- A candidate carried through all stages is as documented when something
triggered it, and only then. -/
theorem gate_carried_through_iff {found : List EventDetection} {result : Option StrategyScanResult}
    (hfound : pipeline.detections instrument input = .ok found)
    (hresult : pipeline.evaluateRules (pipeline.buildFeatureSet instrument bars found asOf) =
      .ok result) (results : List UniverseFilterResult) :
    pipeline.GateAsDocumented engine db instrument asOf
        (pipeline.candidate instrument asOf results found result (rulesPassed result)) ↔
      pipeline.Triggered instrument input := by
  have hrules := rulesPassed_iff hresult
  have hsame : ∀ input', pipeline.readEventInput engine db instrument asOf bars = .ok input' →
      input' = input := fun input' h' => Except.ok.inj (h'.symm.trans hinput)
  constructor
  · intro hgate
    obtain ⟨bars', hbars', hqualified, _, hevidence⟩ := hgate
    rw [Except.ok.inj (hbars'.symm.trans hbars)] at hqualified hevidence
    by_contra hnot
    -- Without evidence of the strategy stage the candidate qualifies.
    have hnone : result = none := hevidence input hinput hpasses hnot
    have hq : rulesPassed result = true := by
      rw [hnone]
      rfl
    obtain ⟨_, input', _, hinput', _, ht, _⟩ := hqualified.mp hq
    exact hnot (hsame input' hinput' ▸ ht)
  · intro ht
    refine ⟨bars, hbars, ?_, fun hp => absurd hpasses hp, ?_⟩
    · constructor
      · intro hq
        exact ⟨hpasses, input, found, hinput, hfound, ht, hrules.mp hq⟩
      · intro hp
        obtain ⟨_, input', found', hinput', hfound', _, hr⟩ := hp
        rw [hsame input' hinput'] at hfound'
        rw [Except.ok.inj (hfound'.symm.trans hfound)] at hr
        exact hrules.mpr hr
    · intro input' hinput' _ hnot
      exact absurd (hsame input' hinput' ▸ ht) hnot

end Scanned

/-- A candidate agrees with the documented gate exactly when no event plugin is
configured, or one applies to the instrument, or a universe filter stops it. -/
theorem gate_as_documented_iff {c : Candidate}
    (h : pipeline.scanInstrument engine db instrument asOf = .ok c) :
    pipeline.GateAsDocumented engine db instrument asOf c ↔
      pipeline.eventScanners = [] ∨
        (∃ scanner ∈ pipeline.eventScanners, applies scanner instrument = true) ∨
        pipeline.FailsUniverse engine db instrument asOf := by
  obtain ⟨bars, results, hbars, hresults, hcases⟩ := scanInstrument_cases h
  have huniverse := passesUniverse_iff hresults
  rcases hcases with ⟨hfailed, hc⟩ | ⟨hpassed, input, found, hinput, hfound, hcases⟩
  · have hnot : ¬ pipeline.PassesUniverse instrument bars := by
      rw [huniverse, hfailed]
      exact Bool.false_ne_true
    rw [hc]
    exact iff_of_true (gate_stopped_by_universe hbars hnot results)
      (Or.inr (Or.inr (failsUniverse_of hbars hresults hfailed)))
  · have hpasses := huniverse.mpr hpassed
    have htriggered := triggered_iff hfound
    rcases hcases with ⟨hempty, hquiet, hc⟩ | ⟨hopen, result, hresult, hc⟩
    · rw [List.isEmpty_eq_false_iff_exists_mem] at hempty
      obtain ⟨scanner, hscanner⟩ := hempty
      have hconfigured := List.mem_filter.mp hscanner
      have hnot : ¬ pipeline.Triggered instrument input := by
        rw [htriggered, hquiet]
        simp [List.ne_nil_of_mem hconfigured.1]
      rw [hc]
      exact iff_of_true (gate_stopped_by_events hbars hpasses hinput hnot results found)
        (Or.inr (Or.inl ⟨scanner, hconfigured⟩))
    · rw [hc, gate_carried_through_iff hbars hpasses hinput hfound hresult]
      constructor
      · intro ht
        rcases ht with ht | ⟨scanner, hscanner, happlies, _⟩
        · exact Or.inl ht
        · exact Or.inr (Or.inl ⟨scanner, hscanner, happlies⟩)
      · intro hcondition
        by_contra ht
        rw [htriggered, not_or] at ht
        -- No plugin applies, though some are configured.
        have hnone := List.isEmpty_iff.mp (hopen.resolve_right ht.2)
        rcases hcondition with hcondition | ⟨scanner, hscanner, happlies⟩ | hfails
        · exact ht.1 hcondition
        · have hmem : scanner ∈ pipeline.applicableScanners instrument :=
            List.mem_filter.mpr ⟨hscanner, happlies⟩
          rw [hnone] at hmem
          cases hmem
        · exact not_failsUniverse_of hbars hpasses hfails

/-- One plugin, for another exchange than the instrument's, and no filter or rule. -/
def foreignPlugin : ScannerPipeline where
  config :=
    { timeframe := "1d", lookbackDays := 1, newsLookbackDays := 1, disclosureLookbackDays := 1 }
  universeFilters := []
  eventScanners :=
    [{ name := "price_gap", market := some "NASDAQ"
       detect := fun _ => .ok
        { eventName := "price_gap", detected := false, observedValue := .none
          threshold := .none, market := some "NASDAQ", reason := some "fewer than 2 bars" } }]
  strategyRuleSet := none
  dataSource := "toss_openapi"

def krxInstrument : InstrumentRow :=
  { id := 1, exchange := "KRX", symbol := "005930", name := none, currency := none
    source := "toss_openapi", rawPayload := none }

theorem foreignPlugin_gate_iff :
    foreignPlugin.GateAsDocumented Engine.stable Database.empty krxInstrument 0
        (foreignPlugin.candidate krxInstrument 0 [] [] none true) ↔
      foreignPlugin.eventScanners = [] ∨
        (∃ scanner ∈ foreignPlugin.eventScanners, applies scanner krxInstrument = true) ∨
        foreignPlugin.FailsUniverse Engine.stable Database.empty krxInstrument 0 :=
  gate_as_documented_iff rfl

/-- The instrument qualifies although nothing was detected. -/
theorem foreignPlugin_qualifies :
    ¬ ∀ (pipeline : ScannerPipeline) (engine : Engine) (db : Database)
        (instrument : InstrumentRow) (asOf : Instant) (c : Candidate),
      pipeline.scanInstrument engine db instrument asOf = .ok c →
        pipeline.GateAsDocumented engine db instrument asOf c := by
  intro h
  obtain ⟨_, _, hqualified, _⟩ :=
    h foreignPlugin Engine.stable Database.empty krxInstrument 0 _ rfl
  obtain ⟨_, input, _, _, _, htriggered, _⟩ := hqualified.mp rfl
  rcases htriggered with hnone | ⟨scanner, hscanner, happlies, _⟩
  · cases hnone
  · rw [List.mem_singleton.mp hscanner] at happlies
    exact absurd happlies (by decide)

end ScannerPipeline

end Scanners
end QuantPlatform
