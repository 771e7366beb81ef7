import QuantPlatform.Scanners.Events

namespace QuantPlatform
namespace Scanners

open Db Decimal

structure FiniteBar (bar : MarketBarRow) : Prop where
  openPrice : bar.openPrice.IsFinite
  highPrice : bar.highPrice.IsFinite
  lowPrice : bar.lowPrice.IsFinite
  closePrice : bar.closePrice.IsFinite
  volume : bar.volume.IsFinite

def FiniteBars (bars : List MarketBarRow) : Prop := ∀ bar ∈ bars, FiniteBar bar

theorem ofInt_ne_zero {n : Nat} (hn : n ≠ 0) : (ofInt n).eq (ofInt 0) = false := by
  have hcast : (n : ℚ) ≠ 0 := Nat.cast_ne_zero.mpr hn
  have hpos : ¬ (n : ℚ) < 0 := not_lt.mpr n.cast_nonneg
  rw [ofInt_natCast]
  simp [Decimal.eq, Decimal.compare, rank, ofInt, hcast, hpos]

/-- The thresholds of the filter are numbers. -/
def ShippedFilter.HasNumbers : ShippedFilter → Prop
  | liquidity filter => filter.minTurnoverValue ≠ .nan
  | priceRange filter => filter.minPrice ≠ some .nan ∧ filter.maxPrice ≠ some .nan
  | rawFlag _ => True

/-- It compares what it makes of the bars. -/
def ShippedFilter.Compares : ShippedFilter → Prop
  | liquidity _ => True
  | priceRange _ => True
  | rawFlag _ => False

variable {bars : List MarketBarRow}

theorem averageTurnover_finiteOrOverflow (hbars : FiniteBars bars) (hne : bars ≠ []) :
    FiniteOrOverflow (averageTurnover bars) := by
  refine (OrOverflow.mapM fun bar hbar => mul_finiteOrOverflow (hbars bar hbar).closePrice
    (hbars bar hbar).volume).bind fun turnovers hturnovers => ?_
  refine (sum_finiteOrOverflow hturnovers.2).bind fun total htotal => ?_
  have hlength : turnovers.length ≠ 0 := by
    rw [hturnovers.1]
    exact fun h => hne (List.length_eq_zero_iff.mp h)
  exact div_finiteOrOverflow htotal trivial (ofInt_ne_zero hlength)

theorem beyond_orOverflow {test : Ordering → Bool} {latest : Decimal} (hlatest : latest.IsFinite)
    {bound : Option Decimal} (hbound : bound ≠ some .nan) :
    OrOverflow (fun _ => True) (beyond (ordered test) latest bound) := by
  cases bound with
  | none => exact .ok trivial
  | some bound => exact ordered_orOverflow hlatest fun h => hbound (congrArg some h)

theorem ShippedFilter.evaluate_orOverflow (filter : ShippedFilter) {data : UniverseFilterInput}
    (hcompares : filter.Compares) (hnumbers : filter.HasNumbers)
    (hbars : FiniteBars data.recentBars) :
    OrOverflow (fun _ => True) (filter.toUniverseFilter.evaluate data) := by
  cases filter with
  | liquidity filter =>
    show OrOverflow _ (filter.evaluate data)
    unfold LiquidityFilter.evaluate
    split_ifs with hempty
    · exact .ok trivial
    · refine (averageTurnover_finiteOrOverflow hbars (by simpa using hempty)).bind
        fun average haverage => ?_
      exact (ordered_orOverflow haverage hnumbers).bind fun _ _ => .ok trivial
  | priceRange filter =>
    show OrOverflow _ (filter.evaluate data)
    unfold PriceRangeFilter.evaluate
    split
    · exact .ok trivial
    · next bar hlast =>
      have hclose := (hbars bar (List.mem_of_getLast? hlast)).closePrice
      refine (beyond_orOverflow hclose hnumbers.1).bind fun _ _ => ?_
      exact (beyond_orOverflow hclose hnumbers.2).bind fun _ _ => .ok trivial
  | rawFlag filter => exact hcompares.elim

/-- The threshold of the plugin is a number. -/
def ShippedPlugin.HasNumbers : ShippedPlugin → Prop
  | priceGap scanner => scanner.minGapRatio ≠ .nan
  | abnormalVolume scanner => scanner.minVolumeMultiple ≠ .nan
  | volatilitySpike scanner => scanner.minRangeRatio ≠ .nan
  | newsOccurrence _ => True
  | disclosureOccurrence _ => True
  | orderbookImbalance scanner => scanner.minImbalanceRatio ≠ .nan

/-- It observes bars. -/
def ShippedPlugin.ObservesBars : ShippedPlugin → Prop
  | priceGap _ => True
  | abnormalVolume _ => True
  | volatilitySpike _ => True
  | newsOccurrence _ => False
  | disclosureOccurrence _ => False
  | orderbookImbalance _ => False

/-- A ratio that was observed is finite. -/
def FiniteRatio : Observation → Prop
  | .ok ratio => ratio.IsFinite
  | .error _ => True

theorem detectRatio_orOverflow {observe : Except Exn Observation}
    (hobserve : OrOverflow FiniteRatio observe) {threshold : Decimal} (hthreshold : threshold ≠ nan)
    (name : String) (market : Option String) (label : String) :
    OrOverflow (fun _ => True) (detectRatio name market threshold label observe) := by
  refine hobserve.bind fun observation hratio => ?_
  cases observation with
  | error reason => exact .ok trivial
  | ok ratio => exact (ordered_orOverflow hratio hthreshold).bind fun _ _ => .ok trivial

theorem observeGap_orOverflow (hbars : FiniteBars bars) :
    OrOverflow FiniteRatio (observeGap bars) := by
  unfold observeGap
  split
  · next latest previous rest hreverse =>
    have hlatest := hbars latest (by rw [← List.mem_reverse, hreverse]; simp)
    have hprevious := hbars previous (by rw [← List.mem_reverse, hreverse]; simp)
    split_ifs with hzero
    · exact .ok trivial
    · refine (sub_finiteOrOverflow hlatest.openPrice hprevious.closePrice).bind
        fun change hchange => (abs_finiteOrOverflow hchange).bind fun distance hdistance => ?_
      refine (div_finiteOrOverflow hdistance hprevious.closePrice ?_).bind
        fun ratio hratio => .ok hratio
      simpa using hzero
  · exact .ok trivial

theorem averageVolume_finiteOrOverflow (hbars : FiniteBars bars) (hne : bars ≠ []) :
    FiniteOrOverflow (averageVolume bars) := by
  have hsum := sum_finiteOrOverflow (List.forall_mem_map.mpr fun bar hbar =>
    (hbars bar hbar).volume)
  refine hsum.bind
    fun total htotal => div_finiteOrOverflow htotal trivial (ofInt_ne_zero fun h => hne ?_)
  exact List.length_eq_zero_iff.mp h

theorem observeVolume_orOverflow (hbars : FiniteBars bars) :
    OrOverflow FiniteRatio (observeVolume bars) := by
  unfold observeVolume
  split
  · next latest previous rest hreverse =>
    have hlatest := hbars latest (by rw [← List.mem_reverse, hreverse]; simp)
    have hne : bars.dropLast ≠ [] := by
      intro hnil
      have hlength := congrArg List.length hreverse
      have hdropped := congrArg List.length hnil
      rw [List.length_dropLast] at hdropped
      simp only [List.length_reverse, List.length_cons, List.length_nil] at hlength hdropped
      omega
    refine (averageVolume_finiteOrOverflow
      (fun bar hbar => hbars bar (List.mem_of_mem_dropLast hbar)) hne).bind
      fun average haverage => ?_
    split_ifs with hzero
    · exact .ok trivial
    · refine (div_finiteOrOverflow hlatest.volume haverage ?_).bind fun ratio hratio => .ok hratio
      simpa using hzero
  · exact .ok trivial

theorem observeRange_orOverflow (hbars : FiniteBars bars) :
    OrOverflow FiniteRatio (observeRange bars) := by
  unfold observeRange
  cases hlast : bars.getLast? with
  | none => exact .ok trivial
  | some latest =>
    have hlatest := hbars latest (List.mem_of_getLast? hlast)
    show OrOverflow _ (if latest.closePrice.eq (.ofInt 0) = true then _ else _)
    split_ifs with hzero
    · exact .ok trivial
    · refine (sub_finiteOrOverflow hlatest.highPrice hlatest.lowPrice).bind fun range hrange => ?_
      refine (div_finiteOrOverflow hrange hlatest.closePrice ?_).bind fun ratio hratio => .ok hratio
      simpa using hzero

theorem ShippedPlugin.detect_orOverflow (plugin : ShippedPlugin) {data : EventScanInput}
    (hobserves : plugin.ObservesBars) (hnumbers : plugin.HasNumbers)
    (hbars : FiniteBars data.bars) :
    OrOverflow (fun _ => True) (plugin.toPlugin.detect data) := by
  cases plugin with
  | priceGap scanner => exact detectRatio_orOverflow (observeGap_orOverflow hbars) hnumbers ..
  | abnormalVolume scanner =>
    exact detectRatio_orOverflow (observeVolume_orOverflow hbars) hnumbers ..
  | volatilitySpike scanner =>
    exact detectRatio_orOverflow (observeRange_orOverflow hbars) hnumbers ..
  | newsOccurrence scanner => exact hobserves.elim
  | disclosureOccurrence scanner => exact hobserves.elim
  | orderbookImbalance scanner => exact hobserves.elim

end Scanners
end QuantPlatform
