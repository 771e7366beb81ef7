import QuantPlatform.Db.Periods
import QuantPlatform.Models.Dataset

namespace QuantPlatform
namespace Models

open Db Relational Raise

/-- The periods of an instrument of which some bar is available at `as_of`. -/
def knownPeriods (bars : MarketBars) (instrumentId : Nat) (timeframe : String)
    (asOf : Instant) : Finset Instant :=
  ((bars.rows.filter fun r => decide (r.key.instrumentId = instrumentId ∧
    r.key.timeframe = timeframe ∧ r.availableAt ≤ asOf)).map fun r => r.key.eventTime).toFinset

/-- A bar of the instrument as a reader at `as_of` sees it. -/
def IsVisibleBar (bars : MarketBars) (instrumentId : Nat) (timeframe : String)
    (asOf : Instant) (row : MarketBarRow) : Prop :=
  row.instrumentId = instrumentId ∧ row.timeframe = timeframe ∧
    ∃ r, IsCurrent bars asOf r ∧ MarketBarRow.ofRow r = row

section Windows

variable {order : BarOrder} {bars : MarketBars} {instrumentId : Nat} {timeframe : String}
  {start stop asOf : Instant}

theorem mem_knownPeriods_iff {t : Instant} :
    t ∈ knownPeriods bars instrumentId timeframe asOf ↔
      ∃ r ∈ bars.rows, r.key.instrumentId = instrumentId ∧ r.key.timeframe = timeframe ∧
        r.availableAt ≤ asOf ∧ r.key.eventTime = t := by
  simp [knownPeriods, and_assoc]

theorem mem_getBarsAsOf_iff_isVisibleBar {row : MarketBarRow} :
    row ∈ getBarsAsOf order bars instrumentId timeframe start stop asOf ↔
      IsVisibleBar bars instrumentId timeframe asOf row ∧
        start ≤ row.eventTime ∧ row.eventTime ≤ stop := by
  rw [mem_getBarsAsOf_iff]
  constructor
  · intro h
    obtain ⟨r, hr, hfilter, rfl⟩ := h
    obtain ⟨hinstrument, htimeframe, hstart, hstop⟩ := (barFilter_iff ..).mp hfilter
    exact ⟨⟨hinstrument, htimeframe, r, hr, rfl⟩, hstart, hstop⟩
  · intro h
    obtain ⟨⟨hinstrument, htimeframe, r, hr, rfl⟩, hstart, hstop⟩ := h
    exact ⟨r, hr, (barFilter_iff ..).mpr ⟨hinstrument, htimeframe, hstart, hstop⟩, rfl⟩

/-- Within the window, a period is known when the read has a row of it. -/
theorem mem_knownPeriods_iff_exists_row (order : BarOrder) {t : Instant} (hstart : start ≤ t)
    (hstop : t ≤ stop) :
    t ∈ knownPeriods bars instrumentId timeframe asOf ↔
      ∃ row ∈ getBarsAsOf order bars instrumentId timeframe start stop asOf,
        row.eventTime = t := by
  rw [← mem_visiblePeriods_iff_exists_row order, mem_knownPeriods_iff, mem_visiblePeriods_iff]
  simp only [barFilter_iff]
  constructor
  · intro h
    obtain ⟨r, hr, hinstrument, htimeframe, hat, rfl⟩ := h
    exact ⟨r, hr, ⟨hinstrument, htimeframe, hstart, hstop⟩, hat, rfl⟩
  · intro h
    obtain ⟨r, hr, ⟨hinstrument, htimeframe, _, _⟩, hat, rfl⟩ := h
    exact ⟨r, hr, hinstrument, htimeframe, hat, rfl⟩

/-- The last bar of a window that ends at `stop` is of `stop` itself exactly when
that period is known. -/
theorem last_eventTime_eq_iff {last : MarketBarRow}
    (hlast : (getBarsAsOf order bars instrumentId timeframe start stop asOf).getLast? =
      some last) :
    last.eventTime = stop ↔ stop ∈ knownPeriods bars instrumentId timeframe asOf := by
  have hmem := List.mem_of_getLast? hlast
  obtain ⟨_, hstart, hstop⟩ := mem_getBarsAsOf_iff_isVisibleBar.mp hmem
  rw [mem_knownPeriods_iff_exists_row order (hstart.trans hstop) le_rfl]
  constructor
  · intro h
    exact ⟨last, hmem, h⟩
  · intro h
    obtain ⟨row, hrow, htime⟩ := h
    have hsorted := getBarsAsOf_ascending order bars instrumentId timeframe start stop asOf
    generalize getBarsAsOf order bars instrumentId timeframe start stop asOf = rows at *
    obtain ⟨older, rfl⟩ := List.getLast?_eq_some_iff.mp hlast
    rcases List.mem_append.mp hrow with holder | hself
    · have hle : row.eventTime ≤ last.eventTime :=
        (List.pairwise_append.mp hsorted).2.2 row holder last (List.mem_singleton_self last)
      exact le_antisymm hstop (htime ▸ hle)
    · rw [List.mem_singleton] at hself
      rw [← hself, htime]

/-- The first bar of a window that starts at `start` is of `start` itself exactly
when that period is known. -/
theorem first_eventTime_eq_iff {first : MarketBarRow}
    (hfirst : (getBarsAsOf order bars instrumentId timeframe start stop asOf)[0]? = some first) :
    first.eventTime = start ↔ start ∈ knownPeriods bars instrumentId timeframe asOf := by
  have hmem := List.mem_of_getElem? hfirst
  obtain ⟨_, hstart, hstop⟩ := mem_getBarsAsOf_iff_isVisibleBar.mp hmem
  rw [mem_knownPeriods_iff_exists_row order le_rfl (hstart.trans hstop)]
  constructor
  · intro h
    exact ⟨first, hmem, h⟩
  · intro h
    obtain ⟨row, hrow, htime⟩ := h
    obtain ⟨i, hi⟩ := List.mem_iff_getElem?.mp hrow
    have hle : first.eventTime ≤ row.eventTime :=
      (getBarsAsOf_ascending ..).le_of_getElem? (Nat.zero_le i) hfirst hi
    exact le_antisymm (htime ▸ hle) hstart

section Nth

variable {n : Nat} (hn : 0 < n) {first row : MarketBarRow} {t : Instant}
  (hfirst : (getBarsAsOf order bars instrumentId timeframe start stop asOf)[0]? = some first)
  (hrow : (getBarsAsOf order bars instrumentId timeframe start stop asOf)[n]? = some row)
  (ht : IsNthAfter (knownPeriods bars instrumentId timeframe asOf) first.eventTime n t)

include hfirst hrow

theorem mem_knownPeriods_iff_between {s : Instant} (hafter : first.eventTime ≤ s)
    (hupto : s ≤ row.eventTime) :
    s ∈ knownPeriods bars instrumentId timeframe asOf ↔
      ∃ r ∈ getBarsAsOf order bars instrumentId timeframe start stop asOf, r.eventTime = s := by
  have hstart := (mem_getBarsAsOf_iff_isVisibleBar.mp (List.mem_of_getElem? hfirst)).2.1
  have hstop := (mem_getBarsAsOf_iff_isVisibleBar.mp (List.mem_of_getElem? hrow)).2.2
  exact mem_knownPeriods_iff_exists_row order (hstart.trans hafter) (hupto.trans hstop)

/-- Every bar of a period before that of row `n` has a row before row `n`. -/
theorem exists_mem_take_of_lt {r : RevisionRow BarKey BarValue} (hr : r ∈ bars.rows)
    (hinstrument : r.key.instrumentId = instrumentId) (htimeframe : r.key.timeframe = timeframe)
    (hafter : first.eventTime ≤ r.key.eventTime) (hbefore : r.key.eventTime < row.eventTime)
    (hat : r.availableAt ≤ asOf) :
    ∃ a ∈ (getBarsAsOf order bars instrumentId timeframe start stop asOf).take (n + 1),
      a.key = r.key := by
  have hstart := (mem_getBarsAsOf_iff_isVisibleBar.mp (List.mem_of_getElem? hfirst)).2.1
  have hstop := (mem_getBarsAsOf_iff_isVisibleBar.mp (List.mem_of_getElem? hrow)).2.2
  have hwindow : barFilter instrumentId timeframe start stop r.key = true :=
    (barFilter_iff ..).mpr ⟨hinstrument, htimeframe, hstart.trans hafter, hbefore.le.trans hstop⟩
  obtain ⟨a, ha, hkey⟩ := exists_mem_getBarsAsOf order hr hwindow hat
  obtain ⟨i, hi⟩ := List.mem_iff_getElem?.mp ha
  refine ⟨a, mem_take_iff_getElem?.mpr ⟨i, ?_, hi⟩, hkey⟩
  by_contra hin
  have hle := (getBarsAsOf_ascending ..).le_of_getElem? (Nat.le_of_succ_le (not_lt.mp hin)) hrow hi
  have hatime : a.eventTime = r.key.eventTime := congrArg BarKey.eventTime hkey
  exact absurd hbefore (not_lt.mpr (hatime ▸ hle))

include hn ht

theorem eventTime_le_nth : row.eventTime ≤ t :=
  (getBarsAsOf_ascending ..).le_nth hn hfirst hrow
    (fun _ hafter hupto => mem_knownPeriods_iff_between hfirst hrow hafter hupto) ht

/-- With one source for each period before the `n`-th, row `n` is of the `n`-th
period. -/
theorem eventTime_eq_nth
    (hone : OneSourcePerPeriod bars instrumentId timeframe first.eventTime (t - 1) asOf) :
    row.eventTime = t := by
  have hsorted := getBarsAsOf_ascending order bars instrumentId timeframe start stop asOf
  rcases lt_or_eq_of_le (eventTime_le_nth hn hfirst hrow ht) with hlt | heq
  · -- Were row `n` of an earlier period, the rows up to it would be of different periods.
    have hstrict : StrictlyAscending MarketBarRow.eventTime
        ((getBarsAsOf order bars instrumentId timeframe start stop asOf).take (n + 1)) := by
      rw [strictlyAscending_iff_nodup (hsorted.sublist (List.take_sublist _ _))]
      have hnodup := (keys_getBarsAsOf_nodup order bars instrumentId timeframe start stop
        asOf).of_map _
      refine List.Nodup.map_on ?_ (hnodup.sublist (List.take_sublist _ _))
      intro a ha b hb htime
      obtain ⟨i, hin, hi⟩ := mem_take_iff_getElem?.mp ha
      have hafter := hsorted.le_of_getElem? (Nat.zero_le i) hfirst hi
      have hupto := hsorted.le_of_getElem? (Nat.lt_succ_iff.mp hin) hi hrow
      exact eq_of_eventTime_eq hone (List.mem_of_mem_take ha) (List.mem_of_mem_take hb) hafter
        (Int.le_sub_one_of_lt (lt_of_le_of_lt hupto hlt)) htime
    exact ((hsorted.isNthAfter_iff hfirst hrow fun _ hafter hupto =>
      mem_knownPeriods_iff_between hfirst hrow hafter hupto).mpr hstrict).unique hn ht
  · exact heq

omit hn in
/-- Row `n` is of the `n`-th period only if each period before it has one source. -/
theorem oneSourcePerPeriod_of_eventTime_eq (htime : row.eventTime = t) :
    OneSourcePerPeriod bars instrumentId timeframe first.eventTime (t - 1) asOf := by
  have hsorted := getBarsAsOf_ascending order bars instrumentId timeframe start stop asOf
  have hstrict := (hsorted.isNthAfter_iff hfirst hrow fun _ hafter hupto =>
    mem_knownPeriods_iff_between hfirst hrow hafter hupto).mp (htime ▸ ht)
  have hnodup := (strictlyAscending_iff_nodup (hsorted.sublist (List.take_sublist _ _))).mp hstrict
  intro r hr s hs hrfilter hsfilter hrat hsat hrs
  rw [barFilter_iff] at hrfilter hsfilter
  have hrlt : r.key.eventTime < row.eventTime := htime ▸ Int.lt_of_le_sub_one hrfilter.2.2.2
  have hslt : s.key.eventTime < row.eventTime := htime ▸ Int.lt_of_le_sub_one hsfilter.2.2.2
  obtain ⟨a, ha, hakey⟩ :=
    exists_mem_take_of_lt hfirst hrow hr hrfilter.1 hrfilter.2.1 hrfilter.2.2.1 hrlt hrat
  obtain ⟨b, hb, hbkey⟩ :=
    exists_mem_take_of_lt hfirst hrow hs hsfilter.1 hsfilter.2.1 hsfilter.2.2.1 hslt hsat
  have hab : a.eventTime = b.eventTime :=
    (congrArg BarKey.eventTime hakey).trans (hrs.trans (congrArg BarKey.eventTime hbkey).symm)
  rw [← hakey, ← hbkey, List.inj_on_of_nodup_map hnodup ha hb hab]

end Nth

end Windows

/-- The instant so many hours from the epoch. -/
def hours (n : Int) : Instant := n * 3600000000

/-- The bar of a day, published as the day ends, at a price five above the day before's. -/
def risingBar (day : Nat) : BarInput :=
  let price := Decimal.ofInt (100 + 5 * day)
  { key := { instrumentId := 1, timeframe := "1d", eventTime := hours (24 * day), source := "toss" }
    availableAt := hours (24 * day), ingestedAt := hours (24 * day)
    value :=
      { openPrice := price, highPrice := price, lowPrice := price, closePrice := price
        volume := Decimal.ofInt 10, currency := some "KRW" } }

/-- Bars of the days `0` to `24`. -/
def risingBars : MarketBars := barsAfter [(List.range 25).map risingBar]

def nextDayBuilder : DatasetBuilder where
  timeframe := "1d"
  featureLookbackDays := 40
  labelDefinition := { horizonDays := 1, returnThreshold := Decimal.ofInt 0, version := "v1" }
  labelLookbackDays := 5

end Models
end QuantPlatform
