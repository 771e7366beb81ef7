import QuantPlatform.Scanners.Universe

namespace QuantPlatform
namespace Scanners

open Db

/-- A ratio, or why there is none. -/
abbrev Observation := Except String Decimal

/-- There is nothing to observe. -/
def IsNothing (observe : Except Exn Observation) : Prop := ∃ reason, observe = .ok (.error reason)

/-- The comparison of what was observed with the least ratio that is detected. -/
def detectRatio (name : String) (market : Option String) (threshold : Decimal) (label : String)
    (observe : Except Exn Observation) : Except Exn EventDetection := do
  match ← observe with
  | .error reason =>
    return { eventName := name
             detected := false
             observedValue := .none
             threshold := .decimal threshold
             market
             reason := some reason }
  | .ok ratio => do
    let detected ← ratio.ge threshold
    let reason :=
      if detected then none else some (label ++ " " ++ ratio.str ++ " < " ++ threshold.str)
    return { eventName := name
             detected
             observedValue := .decimal ratio
             threshold := .decimal threshold
             market
             reason }

/-- The comparison of a count, which is an `int`. -/
def detectCount (name : String) (market : Option String) (minCount : Int) (label : String)
    (count : Nat) : EventDetection :=
  { eventName := name
    detected := decide (minCount ≤ count)
    observedValue := .int count
    threshold := .int minCount
    market
    reason :=
      if minCount ≤ count then none
      else some (label ++ " count " ++ toString count ++ " < " ++ toString minCount) }

structure PriceGapEventScanner where
  minGapRatio : Decimal
  market : Option String := none
  name : String := "price_gap"

def observeGap (bars : List MarketBarRow) : Except Exn Observation :=
  match bars.reverse with
  | latest :: previous :: _ =>
    if previous.closePrice.eq (.ofInt 0) then .ok (.error "previous close is zero")
    else do
      let change ← latest.openPrice.sub previous.closePrice
      let distance ← change.abs
      let gapRatio ← distance.div previous.closePrice
      return .ok gapRatio
  | _ => .ok (.error "fewer than 2 bars")

def PriceGapEventScanner.detect (scanner : PriceGapEventScanner) (data : EventScanInput) :
    Except Exn EventDetection :=
  detectRatio scanner.name scanner.market scanner.minGapRatio "gap ratio" (observeGap data.bars)

structure AbnormalVolumeEventScanner where
  minVolumeMultiple : Decimal
  market : Option String := none
  name : String := "abnormal_volume"

def averageVolume (history : List MarketBarRow) : Except Exn Decimal := do
  let total ← Decimal.sum (history.map MarketBarRow.volume)
  total.div (.ofInt history.length)

def observeVolume (bars : List MarketBarRow) : Except Exn Observation :=
  match bars.reverse with
  | latest :: _ :: _ => do
    let avgVolume ← averageVolume bars.dropLast
    if avgVolume.eq (.ofInt 0) then return .error "average historical volume is zero"
    else do
      let multiple ← latest.volume.div avgVolume
      return .ok multiple
  | _ => .ok (.error "fewer than 2 bars")

def AbnormalVolumeEventScanner.detect (scanner : AbnormalVolumeEventScanner)
    (data : EventScanInput) : Except Exn EventDetection :=
  detectRatio scanner.name scanner.market scanner.minVolumeMultiple "volume multiple"
    (observeVolume data.bars)

structure VolatilitySpikeEventScanner where
  minRangeRatio : Decimal
  market : Option String := none
  name : String := "volatility_spike"

def observeRange (bars : List MarketBarRow) : Except Exn Observation :=
  match bars.getLast? with
  | none => .ok (.error "no bars available")
  | some latest =>
    if latest.closePrice.eq (.ofInt 0) then .ok (.error "close price is zero")
    else do
      let range ← latest.highPrice.sub latest.lowPrice
      let rangeRatio ← range.div latest.closePrice
      return .ok rangeRatio

def VolatilitySpikeEventScanner.detect (scanner : VolatilitySpikeEventScanner)
    (data : EventScanInput) : Except Exn EventDetection :=
  detectRatio scanner.name scanner.market scanner.minRangeRatio "range ratio"
    (observeRange data.bars)

structure NewsOccurrenceEventScanner where
  minCount : Int
  market : Option String := none
  name : String := "news_occurrence"

def NewsOccurrenceEventScanner.detect (scanner : NewsOccurrenceEventScanner)
    (data : EventScanInput) : Except Exn EventDetection :=
  .ok (detectCount scanner.name scanner.market scanner.minCount "news" data.news.length)

structure DisclosureOccurrenceEventScanner where
  minCount : Int
  market : Option String := none
  name : String := "disclosure_occurrence"

def DisclosureOccurrenceEventScanner.detect (scanner : DisclosureOccurrenceEventScanner)
    (data : EventScanInput) : Except Exn EventDetection :=
  .ok (detectCount scanner.name scanner.market scanner.minCount "disclosure"
    data.disclosures.length)

structure OrderbookImbalanceEventScanner where
  minImbalanceRatio : Decimal
  market : Option String := none
  name : String := "orderbook_imbalance"

/-- `Decimal(str(level.get("volume", 0)))`. -/
def levelVolume (level : Level) : Except Exn Decimal :=
  match Decimal.ofStr ((level.lookup "volume").getD (.int 0)).text with
  | some volume => .ok volume
  | none => .error .invalidOperation

/-- The sum of the volumes of a side, each read when it is added. -/
def sideVolume (levels : List Level) : Except Exn Decimal :=
  levels.foldlM (fun total level => levelVolume level >>= total.add) (.ofInt 0)

def observeImbalance : Option OrderBookSnapshotRow → Except Exn Observation
  | none => .ok (.error "no orderbook snapshot available")
  | some orderbook => do
    let bidVolume ← sideVolume orderbook.bids
    let askVolume ← sideVolume orderbook.asks
    let total ← bidVolume.add askVolume
    if total.eq (.ofInt 0) then return .error "no orderbook depth"
    else do
      let difference ← bidVolume.sub askVolume
      let distance ← difference.abs
      let imbalanceRatio ← distance.div total
      return .ok imbalanceRatio

def OrderbookImbalanceEventScanner.detect (scanner : OrderbookImbalanceEventScanner)
    (data : EventScanInput) : Except Exn EventDetection :=
  detectRatio scanner.name scanner.market scanner.minImbalanceRatio "imbalance ratio"
    (observeImbalance data.orderbook)

inductive ShippedPlugin
  | priceGap (scanner : PriceGapEventScanner)
  | abnormalVolume (scanner : AbnormalVolumeEventScanner)
  | volatilitySpike (scanner : VolatilitySpikeEventScanner)
  | newsOccurrence (scanner : NewsOccurrenceEventScanner)
  | disclosureOccurrence (scanner : DisclosureOccurrenceEventScanner)
  | orderbookImbalance (scanner : OrderbookImbalanceEventScanner)

namespace ShippedPlugin

def toPlugin : ShippedPlugin → EventScannerPlugin
  | priceGap scanner =>
    { name := scanner.name, market := scanner.market, detect := scanner.detect }
  | abnormalVolume scanner =>
    { name := scanner.name, market := scanner.market, detect := scanner.detect }
  | volatilitySpike scanner =>
    { name := scanner.name, market := scanner.market, detect := scanner.detect }
  | newsOccurrence scanner =>
    { name := scanner.name, market := scanner.market, detect := scanner.detect }
  | disclosureOccurrence scanner =>
    { name := scanner.name, market := scanner.market, detect := scanner.detect }
  | orderbookImbalance scanner =>
    { name := scanner.name, market := scanner.market, detect := scanner.detect }

/-- The plugin has an answer: its threshold can be compared with a ratio, if there is one. -/
def Answers (data : EventScanInput) : ShippedPlugin → Prop
  | priceGap scanner => scanner.minGapRatio ≠ .nan ∨ IsNothing (observeGap data.bars)
  | abnormalVolume scanner =>
      scanner.minVolumeMultiple ≠ .nan ∨ IsNothing (observeVolume data.bars)
  | volatilitySpike scanner => scanner.minRangeRatio ≠ .nan ∨ IsNothing (observeRange data.bars)
  | newsOccurrence _ => True
  | disclosureOccurrence _ => True
  | orderbookImbalance scanner =>
      scanner.minImbalanceRatio ≠ .nan ∨ IsNothing (observeImbalance data.orderbook)

end ShippedPlugin

/-! ## When a plugin answers -/

/-- What is observed does not raise, and is a finite number if it is one. -/
def Observes (observe : Except Exn Observation) : Prop :=
  ∃ observation, observe = .ok observation ∧ ∀ ratio, observation = .ok ratio → ratio.IsFinite

theorem observes_nothing (reason : String) : Observes (.ok (.error reason)) :=
  ⟨_, rfl, nofun⟩

theorem observes_ratio {low high : Int} {ratio : Decimal} (h : Decimal.Within low high ratio) :
    Observes (.ok (.ok ratio)) := by
  refine ⟨_, rfl, ?_⟩
  rintro _ ⟨⟩
  exact h.isFinite

/-- A ratio is finite when it is computed of bounded numbers and its divisor is not zero. -/
theorem observes_div {a b : Decimal} {low low' high high' : Int} (ha : Decimal.Within low high a)
    (hb : Decimal.Within low' high' b) (hne : b.eq (.ofInt 0) = false)
    (hctx : Decimal.InContext (low - high' - 29) (high - low' + 1)) :
    Observes (a.div b >>= fun ratio => pure (.ok ratio)) := by
  obtain ⟨s, m, e, rfl, hm⟩ := Decimal.exists_finite_of_ne_zero hb hne
  obtain ⟨ratio, hratio, hwithin⟩ := Decimal.div_within ha hb hm hctx
  rw [hratio]
  exact observes_ratio hwithin

theorem detectRatio_iff {observe : Except Exn Observation} (hobserves : Observes observe)
    (name : String) (market : Option String) (threshold : Decimal) (label : String) :
    (∃ detection, detectRatio name market threshold label observe = .ok detection) ↔
      threshold ≠ .nan ∨ IsNothing observe := by
  obtain ⟨observation, rfl, hfinite⟩ := hobserves
  cases observation with
  | error reason => exact iff_of_true ⟨_, rfl⟩ (.inr ⟨reason, rfl⟩)
  | ok ratio =>
    rw [or_iff_left (by rintro ⟨reason, ⟨⟩⟩)]
    exact Raise.exists_bind_pure_iff.trans (Decimal.ordered_eq_ok_iff (hfinite ratio rfl))

section Bars

variable {bars : List MarketBarRow} (hbars : NumericBars bars)

include hbars

theorem observes_gap : Observes (observeGap bars) := by
  unfold observeGap
  split
  · next latest previous rest hreverse =>
    have hlatest := hbars.numeric latest (by rw [← List.mem_reverse, hreverse]; simp)
    have hprevious := hbars.numeric previous (by rw [← List.mem_reverse, hreverse]; simp)
    split_ifs with hzero
    · exact observes_nothing _
    · obtain ⟨change, hchange, hwithin⟩ := Decimal.sub_within ⟨by norm_num, by decide, by decide⟩
        hlatest.openPrice hprevious.closePrice
      obtain ⟨distance, hdistance, hwithin⟩ :=
        Decimal.abs_within ⟨by norm_num, by decide, by decide⟩ hwithin
      rw [hchange]
      show Observes (change.abs >>= _)
      rw [hdistance]
      exact observes_div hwithin hprevious.closePrice (by simpa using hzero)
        ⟨by norm_num, by decide, by decide⟩
  · exact observes_nothing _

theorem exists_averageVolume (hne : bars ≠ []) :
    ∃ average, averageVolume bars = .ok average ∧ Decimal.Within (-16425) 131101 average := by
  have hvolumes : ∀ volume ∈ bars.map MarketBarRow.volume, Decimal.Within (-16383) 131072 volume :=
    List.forall_mem_map.mpr fun bar hbar => (hbars.numeric bar hbar).volume
  obtain ⟨total, htotal, hwithin⟩ := Decimal.sum_within ⟨by norm_num, by decide, by decide⟩
    (by norm_num) hvolumes (by rw [List.length_map]; have := hbars.length; omega)
  obtain ⟨average, haverage, hresult⟩ := Decimal.div_within hwithin
    (within_ofInt_length hbars.length) (fun h => hne (List.length_eq_zero_iff.mp h))
    ⟨by norm_num, by decide, by decide⟩
  refine ⟨average, ?_, hresult⟩
  rw [averageVolume, htotal, ofInt_natCast]
  exact haverage

theorem observes_volume : Observes (observeVolume bars) := by
  unfold observeVolume
  split
  · next latest previous rest hreverse =>
    have hlatest := hbars.numeric latest (by rw [← List.mem_reverse, hreverse]; simp)
    have hlength : bars.length = rest.length + 2 := by
      rw [← List.length_reverse, hreverse]
      rfl
    have hhistory : NumericBars bars.dropLast := by
      refine ⟨fun bar hbar => hbars.numeric bar (List.mem_of_mem_dropLast hbar), ?_⟩
      rw [List.length_dropLast]
      have := hbars.length
      omega
    have hne : bars.dropLast ≠ [] := by
      intro hnil
      have := congrArg List.length hnil
      rw [List.length_dropLast, List.length_nil] at this
      omega
    obtain ⟨average, haverage, hwithin⟩ := exists_averageVolume hhistory hne
    rw [haverage]
    show Observes (if average.eq (.ofInt 0) = true then _ else _)
    split_ifs with hzero
    · exact observes_nothing _
    · exact observes_div hlatest.volume hwithin (by simpa using hzero)
        ⟨by norm_num, by decide, by decide⟩
  · exact observes_nothing _

theorem observes_range : Observes (observeRange bars) := by
  unfold observeRange
  cases hlast : bars.getLast? with
  | none => exact observes_nothing _
  | some latest =>
    have hlatest := hbars.numeric latest (List.mem_of_getLast? hlast)
    show Observes (if latest.closePrice.eq (.ofInt 0) = true then _ else _)
    split_ifs with hzero
    · exact observes_nothing _
    · obtain ⟨range, hrange, hwithin⟩ := Decimal.sub_within ⟨by norm_num, by decide, by decide⟩
        hlatest.highPrice hlatest.lowPrice
      rw [hrange]
      exact observes_div hwithin hlatest.closePrice (by simpa using hzero)
        ⟨by norm_num, by decide, by decide⟩

end Bars

/-- Levels whose volumes are numbers, and no more of them than a JSON array can hold.  Levels are
JSON, so no column bounds their volumes.  They are bounded as if one did, since volumes beyond
the exponents of `Decimal` have a sum that overflows. -/
structure NumericLevels (levels : List Level) : Prop where
  numeric : ∀ level ∈ levels, ∃ volume, levelVolume level = .ok volume ∧ IsNumeric volume
  length : levels.length < 10 ^ 13

structure NumericOrderbook (orderbook : OrderBookSnapshotRow) : Prop where
  bids : NumericLevels orderbook.bids
  asks : NumericLevels orderbook.asks

/-- Volumes that can all be read are summed as they are read. -/
theorem sideVolume_of_mapM {levels : List Level} {volumes : List Decimal}
    (h : levels.mapM levelVolume = .ok volumes) : sideVolume levels = Decimal.sum volumes := by
  have hall := Raise.mapM_eq_ok_iff.mp h
  unfold sideVolume Decimal.sum
  clear h
  generalize Decimal.ofInt 0 = total
  induction hall generalizing total with
  | nil => rfl
  | @cons level volume levels volumes hvolume _ ih =>
    rw [List.foldlM_cons, List.foldlM_cons, hvolume]
    show (total.add volume >>= _) = _
    cases total.add volume with
    | error e => rfl
    | ok next => exact ih next

theorem exists_sideVolume {levels : List Level} (hlevels : NumericLevels levels) :
    ∃ volume, sideVolume levels = .ok volume ∧ Decimal.Within (-16383) 131100 volume := by
  obtain ⟨volumes, hvolumes⟩ := Raise.exists_mapM_eq_ok fun level hlevel =>
    (hlevels.numeric level hlevel).imp fun _ h => h.1
  have hwithin : ∀ volume ∈ volumes, Decimal.Within (-16383) 131072 volume :=
    (Raise.forall_mem_iff_of_mapM hvolumes _).mpr hlevels.numeric
  have hlength : levels.length = volumes.length := (Raise.mapM_eq_ok_iff.mp hvolumes).length_eq
  obtain ⟨volume, hvolume, hbounded⟩ := Decimal.sum_within ⟨by norm_num, by decide, by decide⟩
    (by norm_num) hwithin (by have := hlevels.length; omega)
  exact ⟨volume, (sideVolume_of_mapM hvolumes).trans hvolume,
    hbounded.mono (le_refl _) (by norm_num)⟩

theorem observes_imbalance {orderbook : Option OrderBookSnapshotRow}
    (horderbook : ∀ snapshot ∈ orderbook, NumericOrderbook snapshot) :
    Observes (observeImbalance orderbook) := by
  cases orderbook with
  | none => exact observes_nothing _
  | some snapshot =>
    obtain ⟨bid, hbid, hbidWithin⟩ := exists_sideVolume (horderbook snapshot rfl).bids
    obtain ⟨ask, hask, haskWithin⟩ := exists_sideVolume (horderbook snapshot rfl).asks
    obtain ⟨total, htotal, htotalWithin⟩ :=
      Decimal.add_within ⟨by norm_num, by decide, by decide⟩ hbidWithin haskWithin
    obtain ⟨difference, hdifference, hwithin⟩ :=
      Decimal.sub_within ⟨by norm_num, by decide, by decide⟩ hbidWithin haskWithin
    obtain ⟨distance, hdistance, hwithin⟩ :=
      Decimal.abs_within ⟨by norm_num, by decide, by decide⟩ hwithin
    simp only [observeImbalance, hbid, hask]
    show Observes (bid.add ask >>= _)
    rw [htotal]
    show Observes (if total.eq (.ofInt 0) = true then _ else _)
    split_ifs with hzero
    · exact observes_nothing _
    · rw [hdifference]
      show Observes (difference.abs >>= _)
      rw [hdistance]
      exact observes_div hwithin htotalWithin (by simpa using hzero)
        ⟨by norm_num, by decide, by decide⟩

/-- Inputs of numbers as the columns hold them. -/
structure NumericInput (data : EventScanInput) : Prop where
  bars : NumericBars data.bars
  orderbook : ∀ snapshot ∈ data.orderbook, NumericOrderbook snapshot

/-- A shipped plugin returns exactly when it has an answer. -/
theorem ShippedPlugin.detect_iff (plugin : ShippedPlugin) {data : EventScanInput}
    (hdata : NumericInput data) :
    (∃ detection, plugin.toPlugin.detect data = .ok detection) ↔ plugin.Answers data := by
  cases plugin with
  | priceGap scanner => exact detectRatio_iff (observes_gap hdata.bars) ..
  | abnormalVolume scanner => exact detectRatio_iff (observes_volume hdata.bars) ..
  | volatilitySpike scanner => exact detectRatio_iff (observes_range hdata.bars) ..
  | newsOccurrence scanner => exact iff_of_true ⟨_, rfl⟩ trivial
  | disclosureOccurrence scanner => exact iff_of_true ⟨_, rfl⟩ trivial
  | orderbookImbalance scanner => exact detectRatio_iff (observes_imbalance hdata.orderbook) ..

/-- A decimal that a shipped plugin records as observed is finite. -/
theorem ShippedPlugin.isFinite_observedValue (plugin : ShippedPlugin) {data : EventScanInput}
    (hdata : NumericInput data) {detection : EventDetection}
    (hdetect : plugin.toPlugin.detect data = .ok detection) {d : Decimal}
    (hobserved : detection.observedValue = .decimal d) : d.IsFinite := by
  have hratio : ∀ {observe : Except Exn Observation} {name market threshold label},
      Observes observe → detectRatio name market threshold label observe = .ok detection →
        d.IsFinite := by
    rintro _ name market threshold label ⟨observation, rfl, hfinite⟩ hdetect
    cases observation with
    | error reason =>
      cases hdetect
      cases hobserved
    | ok ratio =>
      change (ratio.ge threshold >>= _) = _ at hdetect
      obtain ⟨detected, _, hresult⟩ := Raise.bind_eq_ok_iff.mp hdetect
      cases hresult
      cases hobserved
      exact hfinite d rfl
  cases plugin with
  | priceGap scanner => exact hratio (observes_gap hdata.bars) hdetect
  | abnormalVolume scanner => exact hratio (observes_volume hdata.bars) hdetect
  | volatilitySpike scanner => exact hratio (observes_range hdata.bars) hdetect
  | newsOccurrence scanner =>
    cases hdetect
    cases hobserved
  | disclosureOccurrence scanner =>
    cases hdetect
    cases hobserved
  | orderbookImbalance scanner => exact hratio (observes_imbalance hdata.orderbook) hdetect

end Scanners
end QuantPlatform
