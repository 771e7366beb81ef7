import QuantPlatform.Db.MarketData
import QuantPlatform.Python.Arithmetic
import QuantPlatform.Python.Sequences

namespace QuantPlatform
namespace Models

open Db

def featureSchemaVersion : String := "1.0.0"

def featureNames : List String :=
  [ "return_1d", "return_5d", "return_10d", "return_20d", "volatility_20d",
    "volume_ratio_5d_20d", "price_vs_sma20" ]

/-- A vector keeps its values by name, as a `dict` does. -/
structure FeatureVector (F : Type) where
  schemaVersion : String
  values : List (String × F)
  deriving DecidableEq, Repr

/-- The values in the order of `FEATURE_NAMES`. -/
def FeatureVector.asOrderedList {F : Type} (vector : FeatureVector F) : Except Exn (List F) :=
  featureNames.mapM fun name =>
    match vector.values.lookup name with
    | some value => .ok value
    | none => .error (.other "KeyError")

structure FeatureComputationResult (F : Type) where
  vector : Option (FeatureVector F)
  reason : Option String
  deriving DecidableEq, Repr

/-- No vector, and why. -/
def FeatureComputationResult.refused {F : Type} (reason : String) : FeatureComputationResult F where
  vector := none
  reason := some reason

section Compute

variable {F : Type} [FloatArithmetic F]

def returnOver (bars : List MarketBarRow) (lookback : Nat) : Except Exn (Option F) := do
  if bars.length < lookback + 1 then
    return none
  let start ← item bars (-(lookback + 1))
  let last ← item bars (-1)
  if start.closePrice.eq (Decimal.ofInt 0) then
    return none
  let change ← Decimal.changeFrom start.closePrice last.closePrice
  return some (FloatArithmetic.ofDecimal change)

/-- The returns from each bar to the next, without those from a zero price. -/
def dailyReturns (window : List MarketBarRow) : Except Exn (List F) :=
  ((window.zip window.tail).filter fun pair => !pair.1.closePrice.eq (Decimal.ofInt 0)).mapM
    fun pair => do
      let change ← Decimal.changeFrom pair.1.closePrice pair.2.closePrice
      return FloatArithmetic.ofDecimal change

/-- `[float(b.column) for b in bars]`. -/
def floats (column : MarketBarRow → Decimal) (bars : List MarketBarRow) : List F :=
  bars.map fun b => FloatArithmetic.ofDecimal (column b)

/-- `sum(xs) / len(xs)`. -/
def mean (xs : List F) : Except Exn F :=
  FloatArithmetic.div (FloatArithmetic.sum xs) (FloatArithmetic.ofInt xs.length)

def computeFeatures (barsAsOf : List MarketBarRow) :
    Except Exn (FeatureComputationResult F) := do
  let required := 21
  if barsAsOf.length < required then
    return .refused s!"need {required} bars, got {barsAsOf.length}"
  let rawReturn1d ← returnOver barsAsOf 1
  let rawReturn5d ← returnOver barsAsOf 5
  let rawReturn10d ← returnOver barsAsOf 10
  let rawReturn20d ← returnOver barsAsOf 20
  match rawReturn1d, rawReturn5d, rawReturn10d, rawReturn20d with
  | some return1d, some return5d, some return10d, some return20d =>
      let window20 := sliceFrom barsAsOf (-20)
      let returns ← dailyReturns window20
      if returns.length < 2 then
        return .refused "fewer than 2 daily returns available for volatility_20d"
      let volatility20d ← FloatArithmetic.pstdev returns
      let volumes5 : List F := floats MarketBarRow.volume (sliceFrom barsAsOf (-5))
      let volumes20 : List F := floats MarketBarRow.volume window20
      let avgVolume20 ← mean volumes20
      if FloatArithmetic.isZero avgVolume20 then
        return .refused "average 20-bar volume is zero"
      let volumeRatio ← FloatArithmetic.div (← mean volumes5) avgVolume20
      let closes20 : List F := floats MarketBarRow.closePrice window20
      let sma20 ← mean closes20
      if FloatArithmetic.isZero sma20 then
        return .refused "20-bar SMA is zero"
      let last ← item barsAsOf (-1)
      let priceOverSma20 ← FloatArithmetic.div (FloatArithmetic.ofDecimal last.closePrice) sma20
      let values :=
        [ ("return_1d", return1d), ("return_5d", return5d), ("return_10d", return10d),
          ("return_20d", return20d), ("volatility_20d", volatility20d),
          ("volume_ratio_5d_20d", volumeRatio),
          ("price_vs_sma20", FloatArithmetic.sub priceOverSma20 (FloatArithmetic.ofInt 1)) ]
      return { vector := some { schemaVersion := featureSchemaVersion, values }, reason := none }
  | _, _, _, _ => return .refused "a return lookback had a zero price"

/-- A vector takes at least 21 bars. -/
theorem length_of_computeFeatures {bars : List MarketBarRow} {result : FeatureComputationResult F}
    (h : computeFeatures bars = .ok result) {vector : FeatureVector F}
    (hvector : result.vector = some vector) : 21 ≤ bars.length := by
  by_contra hshort
  unfold computeFeatures at h
  simp only [if_pos (Nat.not_le.mp hshort)] at h
  cases h
  cases hvector

theorem returnOver_append (older : List MarketBarRow) {bars : List MarketBarRow} {lookback : Nat}
    (h : lookback + 1 ≤ bars.length) :
    returnOver (F := F) (older ++ bars) lookback = returnOver bars lookback := by
  have hlength : ¬ (older ++ bars).length < lookback + 1 := by
    rw [List.length_append]
    omega
  unfold returnOver
  rw [if_neg hlength, if_neg (Nat.not_lt.mpr h),
    item_append_of_neg older bars (by omega) (by omega),
    item_append_of_neg older bars (by omega) (by omega)]

theorem computeFeatures_append (older : List MarketBarRow) {bars : List MarketBarRow}
    (h : 21 ≤ bars.length) :
    computeFeatures (F := F) (older ++ bars) = computeFeatures bars := by
  have hlength : ¬ (older ++ bars).length < 21 := by
    rw [List.length_append]
    omega
  unfold computeFeatures
  simp only [if_neg hlength, if_neg (Nat.not_lt.mpr h)]
  rw [returnOver_append older (by omega), returnOver_append older (by omega),
    returnOver_append older (by omega), returnOver_append older (by omega),
    sliceFrom_append_of_neg older bars (by omega) (by omega),
    sliceFrom_append_of_neg older bars (by omega) (by omega),
    item_append_of_neg older bars (by omega) (by omega)]

end Compute

end Models
end QuantPlatform
