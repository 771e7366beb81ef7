import QuantPlatform.Relational.Ascending
import QuantPlatform.Db.PointInTime
import Mathlib.Data.Int.ConditionallyCompleteOrder

namespace QuantPlatform
namespace Db

open Relational

/-- The periods of which some bar in the window is available at `as_of`. -/
def visiblePeriods (bars : MarketBars) (instrumentId : Nat) (timeframe : String)
    (start stop asOf : Instant) : Finset Instant :=
  ((visibleRows bars (fun r => barFilter instrumentId timeframe start stop r.key) asOf).map
    fun r => r.key.eventTime).toFinset

/-- Of the bars in the window that are available at `as_of`, those of one period
come from one source. -/
def OneSourcePerPeriod (bars : MarketBars) (instrumentId : Nat) (timeframe : String)
    (start stop asOf : Instant) : Prop :=
  ∀ r ∈ bars.rows, ∀ s ∈ bars.rows,
    barFilter instrumentId timeframe start stop r.key = true →
    barFilter instrumentId timeframe start stop s.key = true →
    r.availableAt ≤ asOf → s.availableAt ≤ asOf →
    r.key.eventTime = s.key.eventTime → r.key.source = s.key.source

instance (bars : MarketBars) (instrumentId : Nat) (timeframe : String)
    (start stop asOf : Instant) :
    Decidable (OneSourcePerPeriod bars instrumentId timeframe start stop asOf) :=
  inferInstanceAs (Decidable (∀ r ∈ bars.rows, ∀ s ∈ bars.rows, _))

section Reads

variable (order : BarOrder) {bars : MarketBars} {instrumentId : Nat} {timeframe : String}
  {start stop asOf : Instant}

theorem mem_visiblePeriods_iff {t : Instant} :
    t ∈ visiblePeriods bars instrumentId timeframe start stop asOf ↔
      ∃ r ∈ bars.rows, barFilter instrumentId timeframe start stop r.key = true ∧
        r.availableAt ≤ asOf ∧ r.key.eventTime = t := by
  unfold visiblePeriods
  rw [List.mem_toFinset, List.mem_map]
  simp only [mem_visibleRows_iff, and_assoc]

/-- A bar that is available has a current revision, which the read returns. -/
theorem exists_mem_getBarsAsOf {r : RevisionRow BarKey BarValue} (hr : r ∈ bars.rows)
    (hfilter : barFilter instrumentId timeframe start stop r.key = true)
    (hat : r.availableAt ≤ asOf) :
    ∃ row ∈ getBarsAsOf order bars instrumentId timeframe start stop asOf, row.key = r.key := by
  obtain ⟨c, hc, hkey⟩ := exists_isCurrent hr hat
  rw [← hkey] at hfilter
  exact ⟨MarketBarRow.ofRow c, (mem_getBarsAsOf_iff ..).mpr ⟨c, hc, hfilter, rfl⟩, hkey⟩

/-- A returned row is the current revision of a bar in the window. -/
theorem exists_row_of_mem_getBarsAsOf {order : BarOrder} {row : MarketBarRow}
    (h : row ∈ getBarsAsOf order bars instrumentId timeframe start stop asOf) :
    ∃ r ∈ bars.rows, r.key = row.key ∧
      barFilter instrumentId timeframe start stop r.key = true ∧ r.availableAt ≤ asOf := by
  obtain ⟨r, hr, hfilter, rfl⟩ := (mem_getBarsAsOf_iff ..).mp h
  exact ⟨r, hr.1, rfl, hfilter, hr.2.1⟩

/-- Every visible period has a row, whichever source it is from. -/
theorem mem_visiblePeriods_iff_exists_row {t : Instant} :
    t ∈ visiblePeriods bars instrumentId timeframe start stop asOf ↔
      ∃ row ∈ getBarsAsOf order bars instrumentId timeframe start stop asOf,
        row.eventTime = t := by
  rw [mem_visiblePeriods_iff]
  constructor
  · intro h
    obtain ⟨r, hr, hfilter, hat, rfl⟩ := h
    obtain ⟨row, hrow, hkey⟩ := exists_mem_getBarsAsOf order hr hfilter hat
    exact ⟨row, hrow, congrArg BarKey.eventTime hkey⟩
  · intro h
    obtain ⟨row, hrow, rfl⟩ := h
    obtain ⟨r, hr, hkey, hfilter, hat⟩ := exists_row_of_mem_getBarsAsOf hrow
    exact ⟨r, hr, hfilter, hat, congrArg BarKey.eventTime hkey⟩

theorem getBarsAsOf_ascending (order : BarOrder) (bars : MarketBars) (instrumentId : Nat)
    (timeframe : String) (start stop asOf : Instant) :
    Ascending MarketBarRow.eventTime
      (getBarsAsOf order bars instrumentId timeframe start stop asOf) :=
  getBarsAsOf_sorted ..

/-- Within one instrument and timeframe, a period and a source make up the key. -/
theorem key_eq_of_source_eq {a b : BarKey}
    (ha : barFilter instrumentId timeframe start stop a = true)
    (hb : barFilter instrumentId timeframe start stop b = true)
    (htime : a.eventTime = b.eventTime) (hsource : a.source = b.source) : a = b := by
  rw [barFilter_iff] at ha hb
  cases a
  cases b
  simp_all

/-- Rows of one period that one source covers are the same row. -/
theorem eq_of_eventTime_eq {order : BarOrder} {first last : Instant}
    (hone : OneSourcePerPeriod bars instrumentId timeframe first last asOf) {a b : MarketBarRow}
    (ha : a ∈ getBarsAsOf order bars instrumentId timeframe start stop asOf)
    (hb : b ∈ getBarsAsOf order bars instrumentId timeframe start stop asOf)
    (hfirst : first ≤ a.eventTime) (hlast : a.eventTime ≤ last)
    (htime : a.eventTime = b.eventTime) :
    a = b := by
  obtain ⟨r, hr, hrkey, hrfilter, hrat⟩ := exists_row_of_mem_getBarsAsOf ha
  obtain ⟨s, hs, hskey, hsfilter, hsat⟩ := exists_row_of_mem_getBarsAsOf hb
  have hrtime : r.key.eventTime = a.eventTime := congrArg BarKey.eventTime hrkey
  have hstime : s.key.eventTime = a.eventTime := (congrArg BarKey.eventTime hskey).trans htime.symm
  have hnarrow : ∀ {k : BarKey}, k.eventTime = a.eventTime →
      barFilter instrumentId timeframe start stop k = true →
      barFilter instrumentId timeframe first last k = true := by
    intro k hk h
    rw [barFilter_iff] at h ⊢
    exact ⟨h.1, h.2.1, hk ▸ hfirst, hk ▸ hlast⟩
  have hsource := hone r hr s hs (hnarrow hrtime hrfilter) (hnarrow hstime hsfilter) hrat hsat
    (hrtime.trans hstime.symm)
  have hkey : r.key = s.key :=
    key_eq_of_source_eq hrfilter hsfilter (hrtime.trans hstime.symm) hsource
  rw [hrkey, hskey] at hkey
  exact List.inj_on_of_nodup_map (keys_getBarsAsOf_nodup ..) ha hb hkey

/-- A read has one row per period exactly when no two sources share a period. -/
theorem getBarsAsOf_strictlyAscending_iff :
    StrictlyAscending MarketBarRow.eventTime
        (getBarsAsOf order bars instrumentId timeframe start stop asOf) ↔
      OneSourcePerPeriod bars instrumentId timeframe start stop asOf := by
  rw [strictlyAscending_iff_nodup (getBarsAsOf_ascending ..)]
  constructor
  · intro hnodup r hr s hs hrfilter hsfilter hrat hsat htime
    obtain ⟨a, ha, hakey⟩ := exists_mem_getBarsAsOf order hr hrfilter hrat
    obtain ⟨b, hb, hbkey⟩ := exists_mem_getBarsAsOf order hs hsfilter hsat
    have hab : a.eventTime = b.eventTime := by
      have ha' : a.eventTime = r.key.eventTime := congrArg BarKey.eventTime hakey
      have hb' : b.eventTime = s.key.eventTime := congrArg BarKey.eventTime hbkey
      rw [ha', hb', htime]
    have heq : a = b := List.inj_on_of_nodup_map hnodup ha hb hab
    rw [← hakey, ← hbkey, heq]
  · intro hone
    have hnodup := keys_getBarsAsOf_nodup order bars instrumentId timeframe start stop asOf
    refine List.Nodup.map_on ?_ (hnodup.of_map _)
    intro a ha b hb htime
    obtain ⟨r, _, hrkey, hrfilter, _⟩ := exists_row_of_mem_getBarsAsOf ha
    rw [hrkey, barFilter_iff] at hrfilter
    exact eq_of_eventTime_eq hone ha hb hrfilter.2.2.1 hrfilter.2.2.2 htime

/-- A window with one source per period reads the same whatever is written later. -/
theorem getBarsAsOf_eq_of_agreeUpTo {order order' : BarOrder} {bars' : MarketBars}
    (hone : OneSourcePerPeriod bars instrumentId timeframe start stop asOf)
    (hagree : AgreeUpTo asOf bars bars') :
    getBarsAsOf order' bars' instrumentId timeframe start stop asOf =
      getBarsAsOf order bars instrumentId timeframe start stop asOf := by
  have hstrict := (getBarsAsOf_strictlyAscending_iff order).mpr hone
  have hsame : SameUpToTies MarketBarRow.eventTime
      (getBarsAsOf order bars instrumentId timeframe start stop asOf)
      (getBarsAsOf order' bars' instrumentId timeframe start stop asOf) :=
    SameUpToTies.map (fun _ => rfl) (hagree.select_sameUpToTies le_rfl order order' _)
  exact (hsame.eq_of_strictlyAscending hstrict).symm

/-- A longer window to the same end has the rows of the shorter one as its last. -/
theorem exists_getBarsAsOf_eq_append {order order' : BarOrder} {start' : Instant}
    (hone : OneSourcePerPeriod bars instrumentId timeframe start stop asOf)
    (hstart : start ≤ start') :
    ∃ older, getBarsAsOf order bars instrumentId timeframe start stop asOf =
      older ++ getBarsAsOf order' bars instrumentId timeframe start' stop asOf := by
  have hsplit := (getBarsAsOf_ascending order bars instrumentId timeframe start stop
    asOf).filter_append_filter start'
  have hlate : ((getBarsAsOf order bars instrumentId timeframe start stop asOf).filter
      fun row => start' ≤ row.eventTime) =
      getBarsAsOf order' bars instrumentId timeframe start' stop asOf := by
    have hone' : OneSourcePerPeriod bars instrumentId timeframe start' stop asOf := by
      intro r hr s hs hrfilter hsfilter
      have hwiden : ∀ {k : BarKey}, barFilter instrumentId timeframe start' stop k = true →
          barFilter instrumentId timeframe start stop k = true := by
        intro k hk
        rw [barFilter_iff] at hk ⊢
        exact ⟨hk.1, hk.2.1, hstart.trans hk.2.2.1, hk.2.2.2⟩
      exact hone r hr s hs (hwiden hrfilter) (hwiden hsfilter)
    refine StrictlyAscending.eq_of_mem_iff
      (((getBarsAsOf_strictlyAscending_iff order).mpr hone).filter _)
      ((getBarsAsOf_strictlyAscending_iff order').mpr hone') fun row => ?_
    rw [List.mem_filter, mem_getBarsAsOf_iff, mem_getBarsAsOf_iff, decide_eq_true_eq]
    constructor
    · intro h
      obtain ⟨⟨r, hr, hfilter, rfl⟩, hlater⟩ := h
      rw [barFilter_iff] at hfilter
      exact ⟨r, hr, (barFilter_iff ..).mpr ⟨hfilter.1, hfilter.2.1, hlater, hfilter.2.2.2⟩, rfl⟩
    · intro h
      obtain ⟨r, hr, hfilter, rfl⟩ := h
      rw [barFilter_iff] at hfilter
      exact ⟨⟨r, hr, (barFilter_iff ..).mpr ⟨hfilter.1, hfilter.2.1, hstart.trans hfilter.2.2.1,
        hfilter.2.2.2⟩, rfl⟩, hfilter.2.2.1⟩
  rw [hlate] at hsplit
  exact ⟨_, hsplit.symm⟩

end Reads

/-- Position `k` of a read, from either end, is the `k`-th visible period exactly
when the visible bars of a period come from one source. -/
theorem bars_one_per_period_iff (batches : List (List BarInput)) (order : BarOrder)
    (instrumentId : Nat) (timeframe : String) (start stop asOf : Instant) :
    let rows := getBarsAsOf order (barsAfter batches) instrumentId timeframe start stop asOf
    StrictlyAscending MarketBarRow.eventTime rows ∧
        rows.map MarketBarRow.eventTime =
          (visiblePeriods (barsAfter batches) instrumentId timeframe start stop asOf).sort ↔
      OneSourcePerPeriod (barsAfter batches) instrumentId timeframe start stop asOf := by
  intro rows
  rw [← getBarsAsOf_strictlyAscending_iff order]
  refine ⟨And.left, fun hstrict => ⟨hstrict, ?_⟩⟩
  have hperiods : (rows.map MarketBarRow.eventTime).toFinset =
      visiblePeriods (barsAfter batches) instrumentId timeframe start stop asOf := by
    ext t
    rw [List.mem_toFinset, List.mem_map, mem_visiblePeriods_iff_exists_row order]
  rw [← hperiods]
  exact hstrict.map_eq_sort

/-- The bar of one day as two sources report it. -/
def reportedTwice : List BarInput :=
  let bar := dailyBar (Decimal.ofInt 71) 1
  [bar, { bar with key := { bar.key with source := "krx" } }]

theorem reported_twice_not_ascending :
    ¬ ∀ (batches : List (List BarInput)) (order : BarOrder) (instrumentId : Nat)
        (timeframe : String) (start stop asOf : Instant),
      StrictlyAscending MarketBarRow.eventTime
        (getBarsAsOf order (barsAfter batches) instrumentId timeframe start stop asOf) := by
  intro h
  have hstrict := h [reportedTwice] (OrderBy.byColumn _) 1 "1d" 0 9 5
  revert hstrict
  decide

end Db
end QuantPlatform
