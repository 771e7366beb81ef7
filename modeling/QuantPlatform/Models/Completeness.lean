/-
Whether a feature vector is complete.

`compute_features` is written out once for any arithmetic of prices and floats.  With the
platform's it is `computeFeatures`; with rationals for the prices and reals for the floats
nothing is rounded, and each feature can be compared with what its name says.  Every
denominator of the seven is checked before it is used but for those of the daily returns: a
day from a zero close is left out of the volatility, and the vector is returned without it.
-/
import QuantPlatform.Models.Features
import QuantPlatform.Python.Raise
import Mathlib.Analysis.Real.Sqrt

namespace QuantPlatform
namespace Models

open Db

/-- What `compute_features` does with prices `D` and floats `F`. -/
structure FeatureArithmetic (D F : Type) where
  /-- `price == 0`. -/
  isZero : D → Bool
  /-- `(current - previous) / previous`. -/
  change : D → D → Except Exn D
  toFloat : D → F
  ofInt : Int → F
  sub : F → F → F
  div : F → F → Except Exn F
  sum : List F → F
  pstdev : List F → Except Exn F
  /-- `x == 0` of a float. -/
  vanishes : F → Bool

/-- The columns of a bar that it reads. -/
structure PricedBar (D : Type) where
  closePrice : D
  volume : D

def PricedBar.ofRow (row : MarketBarRow) : PricedBar Decimal where
  closePrice := row.closePrice
  volume := row.volume

section Generic

variable {D F : Type} (A : FeatureArithmetic D F)

/-- `_return_over`. -/
def returnOverIn (bars : List (PricedBar D)) (lookback : Nat) : Except Exn (Option F) := do
  if bars.length < lookback + 1 then
    return none
  let start ← item bars (-(lookback + 1))
  let last ← item bars (-1)
  if A.isZero start.closePrice then
    return none
  let change ← A.change start.closePrice last.closePrice
  return some (A.toFloat change)

def dailyReturnsIn (window : List (PricedBar D)) : Except Exn (List F) :=
  ((window.zip window.tail).filter fun pair => !A.isZero pair.1.closePrice).mapM
    fun pair => do
      let change ← A.change pair.1.closePrice pair.2.closePrice
      return A.toFloat change

/-- `sum(xs) / len(xs)`. -/
def meanIn (xs : List F) : Except Exn F := A.div (A.sum xs) (A.ofInt xs.length)

def computeFeaturesIn (barsAsOf : List (PricedBar D)) :
    Except Exn (FeatureComputationResult F) := do
  let required := 21
  if barsAsOf.length < required then
    return .refused s!"need {required} bars, got {barsAsOf.length}"
  let rawReturn1d ← returnOverIn A barsAsOf 1
  let rawReturn5d ← returnOverIn A barsAsOf 5
  let rawReturn10d ← returnOverIn A barsAsOf 10
  let rawReturn20d ← returnOverIn A barsAsOf 20
  match rawReturn1d, rawReturn5d, rawReturn10d, rawReturn20d with
  | some return1d, some return5d, some return10d, some return20d =>
      let window20 := sliceFrom barsAsOf (-20)
      let returns ← dailyReturnsIn A window20
      if returns.length < 2 then
        return .refused "fewer than 2 daily returns available for volatility_20d"
      let volatility20d ← A.pstdev returns
      let volumes5 := (sliceFrom barsAsOf (-5)).map fun b => A.toFloat b.volume
      let volumes20 := window20.map fun b => A.toFloat b.volume
      let avgVolume20 ← meanIn A volumes20
      if A.vanishes avgVolume20 then
        return .refused "average 20-bar volume is zero"
      let volumeRatio ← A.div (← meanIn A volumes5) avgVolume20
      let closes20 := window20.map fun b => A.toFloat b.closePrice
      let sma20 ← meanIn A closes20
      if A.vanishes sma20 then
        return .refused "20-bar SMA is zero"
      let last ← item barsAsOf (-1)
      let priceOverSma20 ← A.div (A.toFloat last.closePrice) sma20
      let values :=
        [ ("return_1d", return1d), ("return_5d", return5d), ("return_10d", return10d),
          ("return_20d", return20d), ("volatility_20d", volatility20d),
          ("volume_ratio_5d_20d", volumeRatio),
          ("price_vs_sma20", A.sub priceOverSma20 (A.ofInt 1)) ]
      return { vector := some { schemaVersion := featureSchemaVersion, values }, reason := none }
  | _, _, _, _ => return .refused "a return lookback had a zero price"

end Generic

def platformArithmetic (F : Type) [FloatArithmetic F] : FeatureArithmetic Decimal F where
  isZero d := d.eq (Decimal.ofInt 0)
  change := Decimal.changeFrom
  toFloat := FloatArithmetic.ofDecimal
  ofInt := FloatArithmetic.ofInt
  sub := FloatArithmetic.sub
  div := FloatArithmetic.div
  sum := FloatArithmetic.sum
  pstdev := FloatArithmetic.pstdev
  vanishes := FloatArithmetic.isZero

section Platform

variable {F : Type} [FloatArithmetic F]

theorem returnOver_eq (bars : List MarketBarRow) (lookback : Nat) :
    returnOver (F := F) bars lookback =
      returnOverIn (platformArithmetic F) (bars.map PricedBar.ofRow) lookback := by
  unfold returnOver returnOverIn
  rw [List.length_map, item_map, item_map]
  cases item bars (-(lookback + 1)) with
  | error e => rfl
  | ok start =>
    cases item bars (-1) with
    | error e => rfl
    | ok last => rfl

theorem dailyReturns_eq (window : List MarketBarRow) :
    dailyReturns (F := F) window =
      dailyReturnsIn (platformArithmetic F) (window.map PricedBar.ofRow) := by
  unfold dailyReturns dailyReturnsIn
  rw [← List.map_tail, List.zip_map, List.filter_map, List.mapM_map]
  rfl

theorem floats_eq (column : MarketBarRow → Decimal) (field : PricedBar Decimal → Decimal)
    (hfield : ∀ row, field (.ofRow row) = column row) (bars : List MarketBarRow) :
    floats (F := F) column bars =
      (bars.map PricedBar.ofRow).map fun b => (platformArithmetic F).toFloat (field b) := by
  rw [List.map_map]
  exact List.map_congr_left fun row _ => congrArg FloatArithmetic.ofDecimal (hfield row).symm

/-- The feature vector of the platform is that of its arithmetic. -/
theorem computeFeatures_eq (bars : List MarketBarRow) :
    computeFeatures (F := F) bars =
      computeFeaturesIn (platformArithmetic F) (bars.map PricedBar.ofRow) := by
  unfold computeFeatures computeFeaturesIn
  simp only [returnOver_eq, dailyReturns_eq, sliceFrom_map, List.length_map, item_map,
    floats_eq MarketBarRow.volume PricedBar.volume fun _ => rfl,
    floats_eq MarketBarRow.closePrice PricedBar.closePrice fun _ => rfl]
  cases item bars (-1) with
  | error e => rfl
  | ok last => rfl

end Platform

/-! ## Exact arithmetic -/

/-- The population standard deviation. -/
noncomputable def populationDeviation (xs : List ℝ) : ℝ :=
  √((xs.map fun x => (x - xs.sum / xs.length) ^ 2).sum / xs.length)

/-- Prices are rationals, floats are reals, and nothing is rounded. -/
noncomputable def exactNumbers : FeatureArithmetic ℚ ℝ where
  isZero price := decide (price = 0)
  change previous current :=
    if previous = 0 then .error (.other "DivisionByZero")
    else .ok ((current - previous) / previous)
  toFloat price := price
  ofInt n := n
  sub x y := x - y
  div x y := if y = 0 then .error (.other "ZeroDivisionError") else .ok (x / y)
  sum xs := xs.sum
  pstdev xs :=
    if xs = [] then .error (.other "StatisticsError") else .ok (populationDeviation xs)
  vanishes x := decide (x = 0)

theorem exactNumbers_div {x y : ℝ} (h : y ≠ 0) : exactNumbers.div x y = .ok (x / y) := if_neg h

theorem exactNumbers_one : exactNumbers.ofInt 1 = (1 : ℝ) := Int.cast_one

theorem exactNumbers_vanishes {x : ℝ} : (exactNumbers.vanishes x = true) = (x = 0) :=
  decide_eq_true_eq

section Exact

variable (bars : List (PricedBar ℚ))

def lastBars (n : Nat) : List (PricedBar ℚ) := bars.drop (bars.length - n)

/-- The close `n` bars before the last. -/
def closeBefore (n : Nat) : ℚ := ((bars[bars.length - (n + 1)]?).map PricedBar.closePrice).getD 0

/-- The return over the last `n` bars. -/
def returnOverLast (n : Nat) : ℚ := (closeBefore bars 0 - closeBefore bars n) / closeBefore bars n

/-- The last 20 bars, each with the one after it. -/
def dailyPairs : List (PricedBar ℚ × PricedBar ℚ) :=
  (lastBars bars 20).zip (lastBars bars 20).tail

noncomputable def returnsOf (pairs : List (PricedBar ℚ × PricedBar ℚ)) : List ℝ :=
  pairs.map fun pair =>
    (((pair.2.closePrice - pair.1.closePrice) / pair.1.closePrice : ℚ) : ℝ)

noncomputable def averageOf (column : PricedBar ℚ → ℚ) (window : List (PricedBar ℚ)) : ℝ :=
  (window.map fun bar => (column bar : ℝ)).sum / window.length

/-- The seven features, with a volatility of the returns of some days. -/
noncomputable def valuesWith (pairs : List (PricedBar ℚ × PricedBar ℚ)) : List (String × ℝ) :=
  [ ("return_1d", returnOverLast bars 1), ("return_5d", returnOverLast bars 5),
    ("return_10d", returnOverLast bars 10), ("return_20d", returnOverLast bars 20),
    ("volatility_20d", populationDeviation (returnsOf pairs)),
    ("volume_ratio_5d_20d", averageOf PricedBar.volume (lastBars bars 5) /
      averageOf PricedBar.volume (lastBars bars 20)),
    ("price_vs_sma20",
      closeBefore bars 0 / averageOf PricedBar.closePrice (lastBars bars 20) - 1) ]

/-- What the names of the features say: the volatility is that of all 19 days. -/
noncomputable def namedValues : List (String × ℝ) := valuesWith bars (dailyPairs bars)

/-- The denominators that are checked. -/
structure Denominators : Prop where
  returns : ∀ n ∈ [1, 5, 10, 20], closeBefore bars n ≠ 0
  volume : averageOf PricedBar.volume (lastBars bars 20) ≠ 0
  price : averageOf PricedBar.closePrice (lastBars bars 20) ≠ 0

/-- No day of the last 20 bars starts at a close of zero. -/
def EveryDay : Prop := ∀ pair ∈ dailyPairs bars, pair.1.closePrice ≠ 0

/-- There is every feature. -/
def AllDefined : Prop := 21 ≤ bars.length ∧ Denominators bars ∧ EveryDay bars

/-- A vector has what its names say, and without all of it there is none but a reason. -/
structure CompleteOrAbsent : Prop where
  returns : ∃ result, computeFeaturesIn exactNumbers bars = .ok result
  complete : ∀ result vector, computeFeaturesIn exactNumbers bars = .ok result →
    result.vector = some vector →
      vector.values.map Prod.fst = featureNames ∧ vector.values = namedValues bars
  absent : ∀ result, computeFeaturesIn exactNumbers bars = .ok result → ¬ AllDefined bars →
    result.vector = none ∧ ∃ reason, result.reason = some reason

end Exact

section ExactRun

variable {bars : List (PricedBar ℚ)}

theorem item_from_end {n : Nat} (h : n + 1 ≤ bars.length) :
    ∃ bar, item bars (-(n + 1)) = .ok bar ∧ bar.closePrice = closeBefore bars n := by
  have hposition : ((bars.length : Int) + -(n + 1)).toNat = bars.length - (n + 1) := by omega
  have hneg : (-((n : Int) + 1)) < 0 := by omega
  have hnonneg : ¬ (bars.length : Int) + -(n + 1) < 0 := by omega
  obtain ⟨bar, hbar⟩ : ∃ bar, bars[bars.length - (n + 1)]? = some bar :=
    ⟨_, List.getElem?_eq_getElem (by omega)⟩
  refine ⟨bar, ?_, ?_⟩
  · unfold item
    rw [if_pos hneg]
    dsimp only
    rw [if_neg hnonneg, hposition, hbar]
  · rw [closeBefore, hbar]
    rfl

theorem sliceFrom_eq_lastBars {n : Nat} (hn : 0 < n) (h : n ≤ bars.length) :
    sliceFrom bars (-n) = lastBars bars n := by
  have hposition : ((bars.length : Int) + -n).toNat = bars.length - n := by omega
  rw [sliceFrom, if_pos (by omega), hposition, lastBars]

theorem length_lastBars {n : Nat} (h : n ≤ bars.length) : (lastBars bars n).length = n := by
  rw [lastBars, List.length_drop]
  omega

/-- A return is there when the close it starts from is not zero. -/
noncomputable def exactReturn (bars : List (PricedBar ℚ)) (n : Nat) : Option ℝ :=
  if closeBefore bars n = 0 then none else some (returnOverLast bars n : ℝ)

theorem exactReturn_of_ne_zero {n : Nat} (h : closeBefore bars n ≠ 0) :
    exactReturn bars n = some (returnOverLast bars n : ℝ) :=
  if_neg h

theorem closeBefore_ne_zero {n : Nat} {change : ℝ} (h : exactReturn bars n = some change) :
    closeBefore bars n ≠ 0 := by
  intro hzero
  rw [exactReturn, if_pos hzero] at h
  cases h

theorem returnOverIn_exact {n : Nat} (h : n + 1 ≤ bars.length) :
    returnOverIn exactNumbers bars n = .ok (exactReturn bars n) := by
  obtain ⟨start, hstart, hstartClose⟩ := item_from_end h
  obtain ⟨last, hlast, hlastClose⟩ := @item_from_end bars 0 (by omega)
  have hlast' : item bars (-1) = .ok last := hlast
  unfold returnOverIn exactReturn
  rw [if_neg (Nat.not_lt.mpr h), hstart, hlast']
  show (if decide (start.closePrice = 0) = true then _ else _ : Except Exn (Option ℝ)) = _
  rw [hstartClose]
  by_cases hzero : closeBefore bars n = 0
  · rw [if_pos (decide_eq_true hzero), if_pos hzero]
    rfl
  · rw [if_neg (by simpa using hzero), if_neg hzero]
    show ((if closeBefore bars n = 0 then _ else _ : Except Exn ℚ) >>= _) = _
    rw [if_neg hzero, hlastClose]
    rfl

/-- The daily returns that are taken are those that start at a close other than zero. -/
theorem dailyReturnsIn_exact (window : List (PricedBar ℚ)) :
    dailyReturnsIn exactNumbers window =
      .ok (returnsOf ((window.zip window.tail).filter fun pair => pair.1.closePrice ≠ 0)) := by
  have hfilter : (fun pair : PricedBar ℚ × PricedBar ℚ =>
      !exactNumbers.isZero pair.1.closePrice) = fun pair => decide (pair.1.closePrice ≠ 0) := by
    funext pair
    exact (decide_not ..).symm
  rw [dailyReturnsIn, hfilter, Raise.mapM_eq_ok_iff, returnsOf, List.forall₂_map_right_iff]
  refine List.forall₂_same.mpr fun pair hpair => ?_
  have hzero : pair.1.closePrice ≠ 0 := of_decide_eq_true (List.mem_filter.mp hpair).2
  show ((if pair.1.closePrice = 0 then _ else _ : Except Exn ℚ) >>= _) = _
  rw [if_neg hzero]
  rfl

theorem meanIn_exact {xs : List ℝ} (h : xs ≠ []) :
    meanIn exactNumbers xs = .ok (xs.sum / xs.length) := by
  have hlength : ((xs.length : Int) : ℝ) ≠ 0 := by
    simpa using h
  show (if ((xs.length : Int) : ℝ) = 0 then _ else _ : Except Exn ℝ) = _
  rw [if_neg hlength]
  show (.ok (xs.sum / ((xs.length : Int) : ℝ)) : Except Exn ℝ) = _
  rw [Int.cast_natCast]

/-- The days that do not start at a close of zero. -/
def takenPairs (bars : List (PricedBar ℚ)) : List (PricedBar ℚ × PricedBar ℚ) :=
  (dailyPairs bars).filter fun pair => pair.1.closePrice ≠ 0

theorem dailyReturnsIn_window (h : 20 ≤ bars.length) :
    dailyReturnsIn exactNumbers (sliceFrom bars (-20)) = .ok (returnsOf (takenPairs bars)) := by
  have hwindow : sliceFrom bars (-20) = lastBars bars 20 :=
    @sliceFrom_eq_lastBars bars 20 (by omega) h
  rw [dailyReturnsIn_exact, hwindow]
  rfl

/-- The day that starts `n` bars before the last. -/
theorem getElem_dailyPairs {n : Nat} (hn : 1 ≤ n) (hwindow : n ≤ 19) (h : 20 ≤ bars.length) :
    ∃ pair, (dailyPairs bars)[19 - n]? = some pair ∧ pair.1.closePrice = closeBefore bars n := by
  obtain ⟨bar, hbar⟩ : ∃ bar, bars[bars.length - (n + 1)]? = some bar :=
    ⟨_, List.getElem?_eq_getElem (by omega)⟩
  obtain ⟨next, hnext⟩ : ∃ next, bars[bars.length - n]? = some next :=
    ⟨_, List.getElem?_eq_getElem (by omega)⟩
  have hposition : bars.length - 20 + (19 - n) = bars.length - (n + 1) := by omega
  have hafter : bars.length - 20 + (19 - n + 1) = bars.length - n := by omega
  refine ⟨(bar, next), ?_, ?_⟩
  · rw [dailyPairs, List.getElem?_zip_eq_some, List.getElem?_tail, lastBars,
      List.getElem?_drop, List.getElem?_drop, hposition, hafter]
    exact ⟨hbar, hnext⟩
  · rw [closeBefore, hbar]
    rfl

/-- The returns of one and of ten bars leave two days at least. -/
theorem two_le_length_takenPairs (h : 20 ≤ bars.length) (hlast : closeBefore bars 1 ≠ 0)
    (htenth : closeBefore bars 10 ≠ 0) : 2 ≤ (takenPairs bars).length := by
  obtain ⟨first, hfirst, hfirstClose⟩ := @getElem_dailyPairs bars 10 (by omega) (by omega) h
  obtain ⟨second, hsecond, hsecondClose⟩ := @getElem_dailyPairs bars 1 (by omega) (by omega) h
  have hfirstTaken : first ∈ ((dailyPairs bars).take 18).filter
      fun pair => pair.1.closePrice ≠ 0 := by
    refine List.mem_filter.mpr ⟨List.mem_of_getElem? (i := 9) ?_, ?_⟩
    · rw [List.getElem?_take_of_lt (by omega)]
      exact hfirst
    · rw [hfirstClose]
      exact decide_eq_true htenth
  have hsecondTaken : second ∈ ((dailyPairs bars).drop 18).filter
      fun pair => pair.1.closePrice ≠ 0 := by
    refine List.mem_filter.mpr ⟨List.mem_of_getElem? (i := 0) ?_, ?_⟩
    · rw [List.getElem?_drop]
      exact hsecond
    · rw [hsecondClose]
      exact decide_eq_true hlast
  have hfirstPos := List.length_pos_of_mem hfirstTaken
  have hsecondPos := List.length_pos_of_mem hsecondTaken
  rw [takenPairs, ← List.take_append_drop 18 (dailyPairs bars), List.filter_append,
    List.length_append]
  omega

theorem meanIn_column {n : Nat} (column : PricedBar ℚ → ℚ) (hn : 0 < n) (h : n ≤ bars.length) :
    meanIn exactNumbers ((lastBars bars n).map fun bar => exactNumbers.toFloat (column bar)) =
      .ok (averageOf column (lastBars bars n)) := by
  have hne : ((lastBars bars n).map fun bar => (column bar : ℝ)) ≠ [] := by
    rw [Ne, List.map_eq_nil_iff, ← List.length_eq_zero_iff, length_lastBars h]
    omega
  show meanIn exactNumbers ((lastBars bars n).map fun bar => (column bar : ℝ)) = _
  rw [meanIn_exact hne, List.length_map]
  rfl

/-! ## The four ways it ends -/

theorem computeFeaturesIn_short (h : bars.length < 21) :
    computeFeaturesIn exactNumbers bars =
      .ok (.refused s!"need {21} bars, got {bars.length}") := by
  unfold computeFeaturesIn
  dsimp only
  rw [if_pos h]
  rfl

theorem computeFeaturesIn_zero_return (h : 21 ≤ bars.length) {n : Nat} (hn : n ∈ [1, 5, 10, 20])
    (hzero : closeBefore bars n = 0) :
    computeFeaturesIn exactNumbers bars = .ok (.refused "a return lookback had a zero price") := by
  unfold computeFeaturesIn
  dsimp only
  rw [if_neg (Nat.not_lt.mpr h), returnOverIn_exact (by omega), returnOverIn_exact (by omega),
    returnOverIn_exact (by omega), returnOverIn_exact (by omega)]
  cases h1 : exactReturn bars 1 with
  | none => rfl
  | some return1d =>
    cases h5 : exactReturn bars 5 with
    | none => rfl
    | some return5d =>
      cases h10 : exactReturn bars 10 with
      | none => rfl
      | some return10d =>
        cases h20 : exactReturn bars 20 with
        | none => rfl
        | some return20d =>
          have hne : closeBefore bars n ≠ 0 := by
            simp only [List.mem_cons, List.not_mem_nil, or_false] at hn
            rcases hn with rfl | rfl | rfl | rfl
            · exact closeBefore_ne_zero h1
            · exact closeBefore_ne_zero h5
            · exact closeBefore_ne_zero h10
            · exact closeBefore_ne_zero h20
          exact absurd hzero hne

/-- With every return there, the averages of the window decide. -/
theorem computeFeaturesIn_of_returns (h : 21 ≤ bars.length)
    (hreturns : ∀ n ∈ [1, 5, 10, 20], closeBefore bars n ≠ 0) :
    computeFeaturesIn exactNumbers bars = .ok (
      if averageOf PricedBar.volume (lastBars bars 20) = 0 then
        .refused "average 20-bar volume is zero"
      else if averageOf PricedBar.closePrice (lastBars bars 20) = 0 then
        .refused "20-bar SMA is zero"
      else
        { vector := some
            { schemaVersion := featureSchemaVersion, values := valuesWith bars (takenPairs bars) }
          reason := none }) := by
  have hnonzero : ∀ n, n ∈ [1, 5, 10, 20] → exactReturn bars n = some (returnOverLast bars n : ℝ) :=
    fun n hn => exactReturn_of_ne_zero (hreturns n hn)
  have hwindow20 : sliceFrom bars (-20) = lastBars bars 20 :=
    @sliceFrom_eq_lastBars bars 20 (by omega) (by omega)
  have hwindow5 : sliceFrom bars (-5) = lastBars bars 5 :=
    @sliceFrom_eq_lastBars bars 5 (by omega) (by omega)
  have hdays : 2 ≤ (returnsOf (takenPairs bars)).length := by
    rw [returnsOf, List.length_map]
    exact two_le_length_takenPairs (by omega) (hreturns 1 (by simp)) (hreturns 10 (by simp))
  have hdeviation : exactNumbers.pstdev (returnsOf (takenPairs bars)) =
      .ok (populationDeviation (returnsOf (takenPairs bars))) :=
    if_neg (List.ne_nil_of_length_pos (by omega))
  obtain ⟨last, hlast, hlastClose⟩ := @item_from_end bars 0 (by omega)
  have hlast' : item bars (-1) = .ok last := hlast
  unfold computeFeaturesIn
  dsimp only
  rw [if_neg (Nat.not_lt.mpr h), returnOverIn_exact (by omega), returnOverIn_exact (by omega),
    returnOverIn_exact (by omega), returnOverIn_exact (by omega), hnonzero 1 (by simp),
    hnonzero 5 (by simp), hnonzero 10 (by simp), hnonzero 20 (by simp),
    dailyReturnsIn_window (by omega), hwindow20, hwindow5]
  simp only [Raise.ok_bind]
  rw [if_neg (Nat.not_lt.mpr hdays), hdeviation,
    meanIn_column PricedBar.volume (by omega) (by omega),
    meanIn_column PricedBar.volume (by omega) (by omega),
    meanIn_column PricedBar.closePrice (by omega) (by omega), hlast']
  simp only [Raise.ok_bind, exactNumbers_vanishes]
  by_cases hvolume : averageOf PricedBar.volume (lastBars bars 20) = 0
  · rw [if_pos hvolume, if_pos hvolume]
    rfl
  by_cases hprice : averageOf PricedBar.closePrice (lastBars bars 20) = 0
  · rw [if_neg hvolume, if_neg hvolume, if_pos hprice, exactNumbers_div hvolume, Raise.ok_bind,
      if_pos hprice]
    rfl
  · rw [if_neg hvolume, if_neg hvolume, if_neg hprice, exactNumbers_div hvolume, Raise.ok_bind,
      if_neg hprice, exactNumbers_div hprice, hlastClose, exactNumbers_one]
    rfl

theorem computeFeaturesIn_vector (h : 21 ≤ bars.length) (hdenominators : Denominators bars) :
    computeFeaturesIn exactNumbers bars = .ok
      { vector := some
          { schemaVersion := featureSchemaVersion, values := valuesWith bars (takenPairs bars) }
        reason := none } := by
  rw [computeFeaturesIn_of_returns h hdenominators.returns, if_neg hdenominators.volume,
    if_neg hdenominators.price]

/-- Without one of the denominators that are checked there is no vector but a reason. -/
theorem computeFeaturesIn_refused (h : bars.length < 21 ∨ ¬ Denominators bars) :
    ∃ reason, computeFeaturesIn exactNumbers bars = .ok (.refused reason) := by
  by_cases hshort : bars.length < 21
  · exact ⟨_, computeFeaturesIn_short hshort⟩
  have hlength : 21 ≤ bars.length := Nat.not_lt.mp hshort
  by_cases hreturns : ∀ n ∈ [1, 5, 10, 20], closeBefore bars n ≠ 0
  · rw [computeFeaturesIn_of_returns hlength hreturns]
    by_cases hvolume : averageOf PricedBar.volume (lastBars bars 20) = 0
    · exact ⟨_, congrArg Except.ok (if_pos hvolume)⟩
    rw [if_neg hvolume]
    by_cases hprice : averageOf PricedBar.closePrice (lastBars bars 20) = 0
    · exact ⟨_, congrArg Except.ok (if_pos hprice)⟩
    · exact absurd ⟨hreturns, hvolume, hprice⟩ (h.resolve_left hshort)
  · simp only [not_forall, not_not] at hreturns
    obtain ⟨n, hn, hzero⟩ := hreturns
    exact ⟨_, computeFeaturesIn_zero_return hlength hn hzero⟩

/-- The days taken are all of them when none starts at a close of zero. -/
theorem takenPairs_eq (h : EveryDay bars) : takenPairs bars = dailyPairs bars :=
  List.filter_eq_self.mpr fun pair hpair => decide_eq_true (h pair hpair)

theorem completeOrAbsent_of_refused {reason : String}
    (h : computeFeaturesIn exactNumbers bars = .ok (.refused reason)) :
    CompleteOrAbsent bars where
  returns := ⟨_, h⟩
  complete result vector hresult hvector := by
    rw [h] at hresult
    cases hresult
    cases hvector
  absent result hresult _ := by
    rw [h] at hresult
    cases hresult
    exact ⟨rfl, reason, rfl⟩

theorem completeOrAbsent_of_vector (h : 21 ≤ bars.length) (hdenominators : Denominators bars)
    (hdays : EveryDay bars) : CompleteOrAbsent bars where
  returns := ⟨_, computeFeaturesIn_vector h hdenominators⟩
  complete result vector hresult hvector := by
    rw [computeFeaturesIn_vector h hdenominators, takenPairs_eq hdays] at hresult
    cases hresult
    cases hvector
    exact ⟨rfl, rfl⟩
  absent _ _ hundefined := absurd ⟨h, hdenominators, hdays⟩ hundefined

/-- A day from a close of zero is missing in the volatility of a vector that is returned. -/
theorem not_completeOrAbsent (h : 21 ≤ bars.length) (hdenominators : Denominators bars)
    (hdays : ¬ EveryDay bars) : ¬ CompleteOrAbsent bars := by
  intro hcomplete
  have hnone := (hcomplete.absent _ (computeFeaturesIn_vector h hdenominators)
    fun hall => hdays hall.2.2).1
  cases hnone

/-- The platform's vector is that of its arithmetic, and in exact arithmetic it is complete or
absent exactly when there are too few bars, when a denominator that is checked is zero, or
when no day of the window starts at a close of zero. -/
theorem vector_complete_or_absent_iff (bars : List (PricedBar ℚ)) :
    (∀ (F : Type) [FloatArithmetic F] (rows : List MarketBarRow),
      computeFeatures rows = computeFeaturesIn (platformArithmetic F) (rows.map PricedBar.ofRow)) ∧
    (CompleteOrAbsent bars ↔ bars.length < 21 ∨ ¬ Denominators bars ∨ EveryDay bars) := by
  refine ⟨fun F _ rows => computeFeatures_eq rows, ⟨fun h => ?_, fun h => ?_⟩⟩
  · by_contra hcondition
    obtain ⟨hshort, hcondition⟩ := not_or.mp hcondition
    obtain ⟨hdenominators, hdays⟩ := not_or.mp hcondition
    exact not_completeOrAbsent (Nat.not_lt.mp hshort) (not_not.mp hdenominators) hdays h
  · by_cases hrefused : bars.length < 21 ∨ ¬ Denominators bars
    · obtain ⟨reason, hreason⟩ := computeFeaturesIn_refused hrefused
      exact completeOrAbsent_of_refused hreason
    · obtain ⟨hshort, hdenominators⟩ := not_or.mp hrefused
      exact completeOrAbsent_of_vector (Nat.not_lt.mp hshort) (not_not.mp hdenominators)
        ((h.resolve_left hshort).resolve_left hdenominators)

end ExactRun

/-- 21 bars, the fourth from the end with a close of zero. -/
def oneZeroClose : List (PricedBar ℚ) :=
  List.replicate 17 ⟨1, 1⟩ ++ ⟨0, 1⟩ :: List.replicate 3 ⟨1, 1⟩

theorem oneZeroClose_denominators : Denominators oneZeroClose where
  returns := by decide
  volume := by
    norm_num [averageOf, lastBars, oneZeroClose, List.replicate_succ]
  price := by
    norm_num [averageOf, lastBars, oneZeroClose, List.replicate_succ]

theorem zero_close_is_dropped :
    (∃ vector, computeFeaturesIn exactNumbers oneZeroClose =
      .ok { vector := some vector, reason := none }) ∧
    (dailyPairs oneZeroClose).length = 19 ∧ (takenPairs oneZeroClose).length = 18 ∧
    ¬ AllDefined oneZeroClose ∧ ¬ CompleteOrAbsent oneZeroClose := by
  have hdays : ¬ EveryDay oneZeroClose := by
    intro h
    exact h (⟨0, 1⟩, ⟨1, 1⟩) (List.mem_of_getElem? (i := 16) rfl) rfl
  exact ⟨⟨_, computeFeaturesIn_vector (by decide) oneZeroClose_denominators⟩, by decide, by decide,
    fun h => hdays h.2.2, not_completeOrAbsent (by decide) oneZeroClose_denominators hdays⟩

end Models
end QuantPlatform
