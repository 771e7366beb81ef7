import QuantPlatform.Db.MarketData
import QuantPlatform.Python.Arithmetic
import QuantPlatform.Python.Sequences

namespace QuantPlatform
namespace Regime

open Db

inductive TrendState
  | uptrend
  | downtrend
  | sideways
  | unknown
  deriving DecidableEq, Repr

inductive VolatilityLevel
  | low
  | normal
  | high
  | unknown
  deriving DecidableEq, Repr

inductive BreadthState
  | expanding
  | contracting
  | neutral
  | unknown
  deriving DecidableEq, Repr

structure RegimeInput where
  bars : List MarketBarRow
  advancingCount : Option Int
  decliningCount : Option Int

structure RegimeAssessment where
  asOf : Instant
  trend : TrendState
  volatilityLevel : VolatilityLevel
  breadth : BreadthState
  observedReturn : Option Decimal
  observedVolatility : Option Decimal
  observedBreadthRatio : Option Decimal
  reasons : List String
  deriving DecidableEq, Repr

/-- The state of one dimension, its observed value, and the reason it records. -/
structure Dimension (State : Type) where
  state : State
  observed : Option Decimal
  reason : String

/-- A dimension that cannot be assessed. -/
def Dimension.unassessed {State : Type} (state : State) (reason : String) : Dimension State where
  state := state
  observed := none
  reason := reason

/-- The comparison that the three dimensions share. -/
def Dimension.compare {State : Type} (label : String) (observed high low : Decimal)
    (above below between : State) : Except Exn (Dimension State) := do
  let observedText := observed.str
  let highText := high.str
  let lowText := low.str
  if ← observed.ge high then
    return {
      state := above, observed := some observed
      reason := s!"{label} {observedText} >= {highText}" }
  if ← observed.le low then
    return {
      state := below, observed := some observed
      reason := s!"{label} {observedText} <= {lowText}" }
  return {
    state := between, observed := some observed
    reason := s!"{label} {observedText} within [{lowText}, {highText}]" }

/-- `_daily_returns`. -/
def dailyReturns (bars : List MarketBarRow) : Except Exn (List Decimal) :=
  ((bars.zip bars.tail).filter fun pair => !pair.1.closePrice.eq (Decimal.ofInt 0)).mapM
    fun pair => Decimal.changeFrom pair.1.closePrice pair.2.closePrice

structure RegimeClassifier where
  trendLookbackBars : Int
  trendUpThreshold : Decimal
  trendDownThreshold : Decimal
  volatilityLookbackBars : Int
  highVolatilityThreshold : Decimal
  lowVolatilityThreshold : Decimal
  breadthExpandingThreshold : Decimal
  breadthContractingThreshold : Decimal

namespace RegimeClassifier

variable (classifier : RegimeClassifier)

def classifyTrend (bars : List MarketBarRow) : Except Exn (Dimension TrendState) := do
  let needed := classifier.trendLookbackBars + 1
  if bars.length < needed then
    return .unassessed .unknown s!"trend: only {bars.length} bars available, need {needed}"
  let window := sliceFrom bars (-needed)
  let start ← item window 0
  let last ← item window (-1)
  if start.closePrice.eq (Decimal.ofInt 0) then
    return .unassessed .unknown "trend: window start close_price is zero"
  let observedReturn ← Decimal.changeFrom start.closePrice last.closePrice
  Dimension.compare "trend: return" observedReturn classifier.trendUpThreshold
    classifier.trendDownThreshold .uptrend .downtrend .sideways

def classifyVolatility (F : Type) [FloatArithmetic F] (bars : List MarketBarRow) :
    Except Exn (Dimension VolatilityLevel) := do
  let window := sliceFrom bars (-(classifier.volatilityLookbackBars + 1))
  let returns ← dailyReturns window
  if returns.length < 2 then
    return .unassessed .unknown
      s!"volatility: only {returns.length} return observations available, need 2"
  let deviation : F ← FloatArithmetic.pstdev (returns.map FloatArithmetic.ofDecimal)
  Dimension.compare "volatility:" (FloatArithmetic.toDecimal deviation)
    classifier.highVolatilityThreshold classifier.lowVolatilityThreshold .high .low .normal

def classifyBreadth (advancingCount decliningCount : Option Int) :
    Except Exn (Dimension BreadthState) := do
  match advancingCount, decliningCount with
  | some advancing, some declining =>
      let total := advancing + declining
      if total = 0 then
        return .unassessed .unknown "breadth: advancing + declining count is zero"
      let ratio ← Decimal.div (Decimal.ofInt advancing) (Decimal.ofInt total)
      Dimension.compare "breadth: ratio" ratio classifier.breadthExpandingThreshold
        classifier.breadthContractingThreshold .expanding .contracting .neutral
  | _, _ => return .unassessed .unknown "breadth: advancing/declining counts not provided"

def classify (F : Type) [FloatArithmetic F] (data : RegimeInput) (asOf : Instant) :
    Except Exn RegimeAssessment := do
  let trend ← classifier.classifyTrend data.bars
  let volatility ← classifier.classifyVolatility F data.bars
  let breadth ← classifier.classifyBreadth data.advancingCount data.decliningCount
  return {
    asOf
    trend := trend.state
    volatilityLevel := volatility.state
    breadth := breadth.state
    observedReturn := trend.observed
    observedVolatility := volatility.observed
    observedBreadthRatio := breadth.observed
    reasons := [trend.reason, volatility.reason, breadth.reason] }

end RegimeClassifier

structure RegimeProvider where
  classifier : RegimeClassifier
  benchmarkInstrumentId : Nat
  timeframe : String
  lookbackDays : Int

def RegimeProvider.getRegimeAsOf (F : Type) [FloatArithmetic F] (provider : RegimeProvider)
    (order : BarOrder) (bars : MarketBars) (asOf : Instant)
    (advancingCount decliningCount : Option Int) : Except Exn RegimeAssessment := do
  let start ← Instant.minusDays asOf provider.lookbackDays
  let bars := getBarsAsOf order bars provider.benchmarkInstrumentId provider.timeframe start asOf
    asOf
  provider.classifier.classify F { bars, advancingCount, decliningCount } asOf

end Regime
end QuantPlatform
