/-
Which dimensions of a regime have enough history behind them.

The trend checks that its window is full.  The window of the volatility is a slice, which is
shorter when there are fewer bars, and its returns leave out those from a close of zero, so
a volatility may stand on fewer returns than its lookback, down to two.  Bars older than both
windows make no difference to anything.
-/
import QuantPlatform.Python.Raise
import QuantPlatform.Regime.Classifier

namespace QuantPlatform
namespace Regime

open Db

/-- Each bar with the one after it. -/
def consecutive (bars : List MarketBarRow) : List (MarketBarRow × MarketBarRow) :=
  bars.zip bars.tail

/-- The close of the first bar is zero, so that there is no return from it. -/
def FromZero (pair : MarketBarRow × MarketBarRow) : Prop :=
  pair.1.closePrice.eq (Decimal.ofInt 0) = true

instance (pair : MarketBarRow × MarketBarRow) : Decidable (FromZero pair) :=
  inferInstanceAs (Decidable (_ = true))

/-- There is a reason for the dimension. -/
def Recorded (label : String) (reasons : List String) : Prop :=
  ∃ rest, label ++ rest ∈ reasons

namespace RegimeClassifier

def volatilityWindow (classifier : RegimeClassifier) (bars : List MarketBarRow) :
    List MarketBarRow :=
  sliceFrom bars (-(classifier.volatilityLookbackBars + 1))

/-- The volatility has no returns to speak of, or all that it looks back on. -/
def VolatilityHistory (classifier : RegimeClassifier) (bars : List MarketBarRow) : Prop :=
  ((consecutive (classifier.volatilityWindow bars)).filter fun pair => ¬ FromZero pair).length
      < 2 ∨
    (classifier.volatilityLookbackBars + 1 ≤ bars.length ∧
      ∀ pair ∈ consecutive (classifier.volatilityWindow bars), ¬ FromZero pair)

instance (classifier : RegimeClassifier) (bars : List MarketBarRow) :
    Decidable (classifier.VolatilityHistory bars) :=
  inferInstanceAs (Decidable (_ ∨ _ ∧ _))

/-- A dimension that is assessed has its full history, one that is not has no observed value
and a reason, and older bars change nothing. -/
structure Grounded (F : Type) [FloatArithmetic F] (classifier : RegimeClassifier)
    (data : RegimeInput) (asOf : Instant) (assessment : RegimeAssessment) : Prop where
  trend : assessment.trend ≠ .unknown →
    classifier.trendLookbackBars + 1 ≤ data.bars.length
  /-- All consecutive returns of the window entered the observed volatility. -/
  volatility : assessment.volatilityLevel ≠ .unknown →
    classifier.volatilityLookbackBars + 1 ≤ data.bars.length ∧
      ∃ (returns : List Decimal) (deviation : F),
        dailyReturns (classifier.volatilityWindow data.bars) = .ok returns ∧
          (returns.length : Int) = classifier.volatilityLookbackBars ∧
          List.Forall₂ (fun pair change =>
              Decimal.changeFrom pair.1.closePrice pair.2.closePrice = .ok change)
            (consecutive (classifier.volatilityWindow data.bars)) returns ∧
          FloatArithmetic.pstdev (returns.map FloatArithmetic.ofDecimal) = .ok deviation ∧
          assessment.observedVolatility = some (FloatArithmetic.toDecimal deviation)
  trendUnknown : assessment.trend = .unknown →
    assessment.observedReturn = none ∧ Recorded "trend:" assessment.reasons
  volatilityUnknown : assessment.volatilityLevel = .unknown →
    assessment.observedVolatility = none ∧ Recorded "volatility:" assessment.reasons
  breadthUnknown : assessment.breadth = .unknown →
    assessment.observedBreadthRatio = none ∧ Recorded "breadth:" assessment.reasons
  older : max classifier.trendLookbackBars classifier.volatilityLookbackBars + 1 ≤
      data.bars.length → ∀ older : List MarketBarRow,
    classifier.classify F { data with bars := older ++ data.bars } asOf = .ok assessment

theorem compare_known {State : Type} (unknown : State) {label : String}
    {observed high low : Decimal} {above below between : State} (habove : above ≠ unknown)
    (hbelow : below ≠ unknown) (hbetween : between ≠ unknown) {d : Dimension State}
    (h : Dimension.compare label observed high low above below between = .ok d) :
    d.state ≠ unknown ∧ d.observed = some observed := by
  obtain ⟨reached, _, h⟩ := Raise.bind_eq_ok_iff.mp h
  cases reached with
  | true =>
    cases h
    exact ⟨habove, rfl⟩
  | false =>
    obtain ⟨fallen, _, h⟩ := Raise.bind_eq_ok_iff.mp h
    cases fallen with
    | true =>
      cases h
      exact ⟨hbelow, rfl⟩
    | false =>
      cases h
      exact ⟨hbetween, rfl⟩

variable {classifier : RegimeClassifier} {bars : List MarketBarRow}

theorem classifyTrend_ok {d : Dimension TrendState} (h : classifier.classifyTrend bars = .ok d) :
    (d.state = .unknown ∧ d.observed = none ∧ ∃ rest, d.reason = "trend:" ++ rest) ∨
      (d.state ≠ .unknown ∧ classifier.trendLookbackBars + 1 ≤ bars.length) := by
  unfold classifyTrend at h
  dsimp only at h
  split_ifs at h with hfew
  · cases h
    refine .inl ⟨rfl, rfl, ?_⟩
    rw [Dimension.unassessed, show toString "trend: only " = "trend:" ++ " only " from rfl]
    simp only [String.append_assoc]
    exact ⟨_, rfl⟩
  · obtain ⟨start, _, h⟩ := Raise.bind_eq_ok_iff.mp h
    obtain ⟨last, _, h⟩ := Raise.bind_eq_ok_iff.mp h
    split_ifs at h with hzero
    · cases h
      exact .inl ⟨rfl, rfl, " window start close_price is zero", rfl⟩
    · obtain ⟨observed, _, h⟩ := Raise.bind_eq_ok_iff.mp h
      have hknown := compare_known .unknown (by decide) (by decide) (by decide) h
      exact .inr ⟨hknown.1, not_lt.mp hfew⟩

theorem classifyVolatility_ok {F : Type} [FloatArithmetic F] {d : Dimension VolatilityLevel}
    (h : classifier.classifyVolatility F bars = .ok d) :
    ∃ returns, dailyReturns (classifier.volatilityWindow bars) = .ok returns ∧
      ((returns.length < 2 ∧ d.state = .unknown ∧ d.observed = none ∧
          ∃ rest, d.reason = "volatility:" ++ rest) ∨
        (2 ≤ returns.length ∧ d.state ≠ .unknown ∧ ∃ deviation : F,
          FloatArithmetic.pstdev (returns.map FloatArithmetic.ofDecimal) = .ok deviation ∧
            d.observed = some (FloatArithmetic.toDecimal deviation))) := by
  unfold classifyVolatility at h
  dsimp only at h
  obtain ⟨returns, hreturns, h⟩ := Raise.bind_eq_ok_iff.mp h
  refine ⟨returns, hreturns, ?_⟩
  split_ifs at h with hfew
  · cases h
    refine .inl ⟨hfew, rfl, rfl, ?_⟩
    rw [Dimension.unassessed,
      show toString "volatility: only " = "volatility:" ++ " only " from rfl]
    simp only [String.append_assoc]
    exact ⟨_, rfl⟩
  · obtain ⟨deviation, hdeviation, h⟩ := Raise.bind_eq_ok_iff.mp h
    obtain ⟨hstate, hobserved⟩ := compare_known .unknown (by decide) (by decide) (by decide) h
    exact .inr ⟨not_lt.mp hfew, hstate, deviation, hdeviation, hobserved⟩

theorem classifyBreadth_ok {advancingCount decliningCount : Option Int}
    {d : Dimension BreadthState}
    (h : classifier.classifyBreadth advancingCount decliningCount = .ok d) :
    d.state = .unknown → d.observed = none ∧ ∃ rest, d.reason = "breadth:" ++ rest := by
  unfold classifyBreadth at h
  intro hunknown
  split at h
  · dsimp only at h
    split_ifs at h with hzero
    · cases h
      exact ⟨rfl, " advancing + declining count is zero", rfl⟩
    · obtain ⟨ratio, _, h⟩ := Raise.bind_eq_ok_iff.mp h
      have hknown := compare_known .unknown (by decide) (by decide) (by decide) h
      exact absurd hunknown hknown.1
  · cases h
    exact ⟨rfl, " advancing/declining counts not provided", rfl⟩

/-! ## Windows -/

theorem classifyTrend_append (older : List MarketBarRow)
    (hpositive : 0 ≤ classifier.trendLookbackBars)
    (hlength : classifier.trendLookbackBars + 1 ≤ bars.length) :
    classifier.classifyTrend (older ++ bars) = classifier.classifyTrend bars := by
  have hslice := sliceFrom_append_of_neg older bars
    (show -(classifier.trendLookbackBars + 1) < 0 by omega) (by omega)
  have hfew : ¬ (bars.length : Int) < classifier.trendLookbackBars + 1 := by omega
  have hfew' : ¬ ((older ++ bars).length : Int) < classifier.trendLookbackBars + 1 := by
    rw [List.length_append]
    omega
  unfold classifyTrend
  dsimp only
  rw [if_neg hfew, if_neg hfew', hslice]

theorem classifyVolatility_append (F : Type) [FloatArithmetic F] (older : List MarketBarRow)
    (hpositive : 0 ≤ classifier.volatilityLookbackBars)
    (hlength : classifier.volatilityLookbackBars + 1 ≤ bars.length) :
    classifier.classifyVolatility F (older ++ bars) = classifier.classifyVolatility F bars := by
  have hslice := sliceFrom_append_of_neg older bars
    (show -(classifier.volatilityLookbackBars + 1) < 0 by omega) (by omega)
  unfold classifyVolatility
  dsimp only
  rw [hslice]

theorem length_consecutive (bars : List MarketBarRow) :
    (consecutive bars).length = bars.length - 1 := by
  rw [consecutive, List.length_zip, List.length_tail]
  omega

/-- A full window has as many pairs as the lookback. -/
theorem length_pairs_volatilityWindow (hpositive : 0 ≤ classifier.volatilityLookbackBars)
    (hlength : classifier.volatilityLookbackBars + 1 ≤ bars.length) :
    ((consecutive (classifier.volatilityWindow bars)).length : Int) =
      classifier.volatilityLookbackBars := by
  have hwindow : (classifier.volatilityWindow bars).length =
      bars.length - (bars.length - (classifier.volatilityLookbackBars + 1).toNat) := by
    rw [volatilityWindow, sliceFrom, if_pos (by omega), List.length_drop]
    omega
  rw [length_consecutive, hwindow]
  omega

/-- The returns are those of the pairs that are not from a zero. -/
theorem dailyReturns_eq_ok_iff {returns : List Decimal} : dailyReturns bars = .ok returns ↔
    List.Forall₂ (fun pair change =>
        Decimal.changeFrom pair.1.closePrice pair.2.closePrice = .ok change)
      ((consecutive bars).filter fun pair => ¬ FromZero pair) returns := by
  rw [dailyReturns, Raise.mapM_eq_ok_iff]
  have hfilter : (consecutive bars).filter (fun pair => ¬ FromZero pair) =
      (bars.zip bars.tail).filter fun pair => !pair.1.closePrice.eq (Decimal.ofInt 0) :=
    List.filter_congr fun pair _ => by simp [FromZero]
  rw [hfilter]

/-- Every pair has a return exactly when none is from a zero. -/
theorem length_dailyReturns_eq_iff {returns : List Decimal} (h : dailyReturns bars = .ok returns) :
    returns.length = (consecutive bars).length ↔
      ∀ pair ∈ consecutive bars, ¬ FromZero pair := by
  rw [← (dailyReturns_eq_ok_iff.mp h).length_eq, List.length_filter_eq_length_iff]
  simp only [decide_eq_true_eq]

theorem dailyReturns_of_no_zero {returns : List Decimal} (h : dailyReturns bars = .ok returns)
    (hnone : ∀ pair ∈ consecutive bars, ¬ FromZero pair) :
    List.Forall₂ (fun pair change =>
        Decimal.changeFrom pair.1.closePrice pair.2.closePrice = .ok change)
      (consecutive bars) returns := by
  have hentered := dailyReturns_eq_ok_iff.mp h
  have hfilter : ((consecutive bars).filter fun pair => ¬ FromZero pair) = consecutive bars := by
    rw [List.filter_eq_self]
    exact fun pair hpair => decide_eq_true (hnone pair hpair)
  rwa [hfilter] at hentered

theorem classify_eq_ok_iff {F : Type} [FloatArithmetic F] {data : RegimeInput} {asOf : Instant}
    {assessment : RegimeAssessment} :
    classifier.classify F data asOf = .ok assessment ↔
      ∃ trend volatility breadth, classifier.classifyTrend data.bars = .ok trend ∧
        classifier.classifyVolatility F data.bars = .ok volatility ∧
        classifier.classifyBreadth data.advancingCount data.decliningCount = .ok breadth ∧
        assessment =
          { asOf
            trend := trend.state
            volatilityLevel := volatility.state
            breadth := breadth.state
            observedReturn := trend.observed
            observedVolatility := volatility.observed
            observedBreadthRatio := breadth.observed
            reasons := [trend.reason, volatility.reason, breadth.reason] } := by
  unfold classify
  constructor
  · intro h
    obtain ⟨trend, htrend, h⟩ := Raise.bind_eq_ok_iff.mp h
    obtain ⟨volatility, hvolatility, h⟩ := Raise.bind_eq_ok_iff.mp h
    obtain ⟨breadth, hbreadth, h⟩ := Raise.bind_eq_ok_iff.mp h
    exact ⟨trend, volatility, breadth, htrend, hvolatility, hbreadth, (Except.ok.inj h).symm⟩
  · rintro ⟨trend, volatility, breadth, htrend, hvolatility, hbreadth, rfl⟩
    rw [htrend, hvolatility, hbreadth]
    rfl

/-- Bars before both windows change nothing. -/
theorem classify_append {F : Type} [FloatArithmetic F] {data : RegimeInput} {asOf : Instant}
    {assessment : RegimeAssessment} (htrendLookback : 0 ≤ classifier.trendLookbackBars)
    (hvolatilityLookback : 0 ≤ classifier.volatilityLookbackBars)
    (hlength : max classifier.trendLookbackBars classifier.volatilityLookbackBars + 1 ≤
      data.bars.length)
    (hclassify : classifier.classify F data asOf = .ok assessment) (older : List MarketBarRow) :
    classifier.classify F { data with bars := older ++ data.bars } asOf = .ok assessment := by
  obtain ⟨trend, volatility, breadth, htrend, hvolatility, hbreadth, rfl⟩ :=
    classify_eq_ok_iff.mp hclassify
  refine classify_eq_ok_iff.mpr ⟨trend, volatility, breadth, ?_, ?_, hbreadth, rfl⟩
  · exact (classifyTrend_append older htrendLookback (by omega)).trans htrend
  · exact (classifyVolatility_append F older hvolatilityLookback (by omega)).trans hvolatility

/-- An assessment stands on full histories exactly when its volatility does. -/
theorem assessment_grounded_iff (F : Type) [FloatArithmetic F] (classifier : RegimeClassifier)
    (htrendLookback : 2 ≤ classifier.trendLookbackBars)
    (hvolatilityLookback : 2 ≤ classifier.volatilityLookbackBars) (data : RegimeInput)
    (asOf : Instant) {assessment : RegimeAssessment}
    (hclassify : classifier.classify F data asOf = .ok assessment) :
    classifier.Grounded F data asOf assessment ↔ classifier.VolatilityHistory data.bars := by
  have hclassified := hclassify
  obtain ⟨trend, volatility, breadth, htrend, hvolatility, hbreadth, rfl⟩ :=
    classify_eq_ok_iff.mp hclassify
  obtain ⟨returns, hreturns, hvolatilityCases⟩ := classifyVolatility_ok hvolatility
  have htrendCases := classifyTrend_ok htrend
  constructor
  · intro hgrounded
    obtain ⟨hfew, _⟩ | ⟨_, hknown, _⟩ := hvolatilityCases
    · rw [← (dailyReturns_eq_ok_iff.mp hreturns).length_eq] at hfew
      exact .inl hfew
    · obtain ⟨hlength, returns', _, hreturns', hall, _⟩ := hgrounded.volatility hknown
      have hpairs := length_pairs_volatilityWindow (by omega) hlength
      exact .inr ⟨hlength, (length_dailyReturns_eq_iff hreturns').mp (by omega)⟩
  · intro hhistory
    refine ⟨?_, ?_, ?_, ?_, ?_, ?_⟩
    · intro hknown
      obtain ⟨hunknown, _⟩ | ⟨_, hlength⟩ := htrendCases
      · exact absurd hunknown hknown
      · exact hlength
    · intro hknown
      obtain ⟨_, hunknown, _⟩ | ⟨hmany, _, deviation, hdeviation, hobserved⟩ := hvolatilityCases
      · exact absurd hunknown hknown
      · obtain hfew | ⟨hlength, hnone⟩ := hhistory
        · rw [(dailyReturns_eq_ok_iff.mp hreturns).length_eq] at hfew
          omega
        · have hpairs := length_pairs_volatilityWindow (by omega) hlength
          have hcount := (length_dailyReturns_eq_iff hreturns).mpr hnone
          exact ⟨hlength, returns, deviation, hreturns, by omega,
            dailyReturns_of_no_zero hreturns hnone, hdeviation, hobserved⟩
    · intro hunknown
      obtain ⟨_, hobserved, rest, hreason⟩ | ⟨hknown, _⟩ := htrendCases
      · exact ⟨hobserved, rest, by simp [hreason]⟩
      · exact absurd hunknown hknown
    · intro hunknown
      obtain ⟨_, _, hobserved, rest, hreason⟩ | ⟨_, hknown, _⟩ := hvolatilityCases
      · exact ⟨hobserved, rest, by simp [hreason]⟩
      · exact absurd hunknown hknown
    · intro hunknown
      obtain ⟨hobserved, rest, hreason⟩ := classifyBreadth_ok hbreadth hunknown
      exact ⟨hobserved, rest, by simp [hreason]⟩
    · exact fun hlength older => classify_append (by omega) (by omega) hlength hclassified older

end RegimeClassifier

def closeBar (day : Nat) (close : Int) : MarketBarRow where
  instrumentId := 1
  timeframe := "1d"
  eventTime := day * Instant.microsecondsPerDay
  availableAt := day * Instant.microsecondsPerDay
  ingestedAt := day * Instant.microsecondsPerDay
  revision := 1
  openPrice := .ofInt close
  highPrice := .ofInt close
  lowPrice := .ofInt close
  closePrice := .ofInt close
  volume := .ofInt 1000
  currency := some "KRW"
  source := "toss_openapi"

/-- A trend of two bars, and a volatility of so many. -/
def lookingBack (volatilityLookbackBars : Int) : RegimeClassifier where
  trendLookbackBars := 2
  trendUpThreshold := .finite false 2 (-2)
  trendDownThreshold := .finite true 2 (-2)
  volatilityLookbackBars
  highVolatilityThreshold := .finite false 2 (-2)
  lowVolatilityThreshold := .finite false 5 (-3)
  breadthExpandingThreshold := .finite false 6 (-1)
  breadthContractingThreshold := .finite false 4 (-1)

/-- Three bars, and no breadth. -/
def threeBars : RegimeInput where
  bars := [closeBar 1 1000, closeBar 2 1000, closeBar 3 1000]
  advancingCount := none
  decliningCount := none

theorem classify_threeBars (volatilityLookbackBars : Int)
    (hlevel : ((lookingBack volatilityLookbackBars).classify ℚ threeBars 0).toOption.map
      RegimeAssessment.volatilityLevel = some .low) :
    ∃ assessment, (lookingBack volatilityLookbackBars).classify ℚ threeBars 0 = .ok assessment ∧
      assessment.volatilityLevel = .low := by
  cases hclassify : (lookingBack volatilityLookbackBars).classify ℚ threeBars 0 with
  | error e =>
    rw [hclassify] at hlevel
    cases hlevel
  | ok assessment =>
    rw [hclassify] at hlevel
    exact ⟨assessment, rfl, Option.some.inj hlevel⟩

/-- With a lookback of twenty bars, three bars have a low volatility. -/
theorem three_bars_assessed :
    ∃ assessment, (lookingBack 20).classify ℚ threeBars 0 = .ok assessment ∧
      ¬ (lookingBack 20).Grounded ℚ threeBars 0 assessment := by
  obtain ⟨assessment, hclassify, hlow⟩ := classify_threeBars 20 (by decide +kernel)
  refine ⟨assessment, hclassify, fun hgrounded => ?_⟩
  have hlength := (hgrounded.volatility (by rw [hlow]; decide)).1
  revert hlength
  decide

/-- With a lookback of two, they have all it takes. -/
theorem three_bars_suffice :
    ∃ assessment, (lookingBack 2).classify ℚ threeBars 0 = .ok assessment ∧
      (lookingBack 2).Grounded ℚ threeBars 0 assessment := by
  obtain ⟨assessment, hclassify, _⟩ := classify_threeBars 2 (by decide +kernel)
  exact ⟨assessment, hclassify, (RegimeClassifier.assessment_grounded_iff ℚ (lookingBack 2)
    (by decide) (by decide) threeBars 0 hclassify).mpr (by decide +kernel)⟩

end Regime
end QuantPlatform
