import QuantPlatform.Db.MarketData
import QuantPlatform.Temporal.Grid
import Mathlib.Algebra.BigOperators.Group.List.Basic
import Mathlib.Data.Rat.Floor

namespace QuantPlatform
namespace Db

open Relational Temporal

/-- `total_seconds()` of a difference, in exact arithmetic. -/
def totalSeconds (microseconds : Int) : ℚ := microseconds / 1000000

structure MarketDataQualityReport where
  instrumentId : Nat
  timeframe : String
  start : Instant
  stop : Instant
  expectedBarCount : Int
  actualBarCount : Nat
  missingCount : Int
  avgLatencySeconds : Option ℚ
  maxLatencySeconds : Option ℚ
  latestIngestedAt : Option Instant
  stalenessSeconds : Option ℚ
  isStale : Bool
  deriving DecidableEq, Repr

/-- The rows the report is about: all revisions of all sources. -/
def windowRows (bars : MarketBars) (instrumentId : Nat) (timeframe : String)
    (start stop : Instant) : List (RevisionRow BarKey BarValue) :=
  bars.rows.filter fun r => barFilter instrumentId timeframe start stop r.key

/-- `avg(…)`, `NULL` of no rows. -/
def average (xs : List ℚ) : Option ℚ := if xs = [] then none else some (xs.sum / xs.length)

/-- `compute_market_data_quality`, where `clock` is what `datetime.now(UTC)` reads. -/
def computeMarketDataQuality (bars : MarketBars) (instrumentId : Nat) (timeframe : String)
    (start stop : Instant) (expectedIntervalSeconds staleAfterSeconds : ℚ)
    (now : Option Instant) (clock : Instant) : MarketDataQualityReport :=
  let now := now.getD clock
  let rows := windowRows bars instrumentId timeframe start stop
  let actualCount := rows.length
  let latencySeconds := rows.map fun r => totalSeconds (r.ingestedAt - r.key.eventTime)
  let latestIngestedAt := (rows.map RevisionRow.ingestedAt).max?
  let spanSeconds := totalSeconds (stop - start)
  let expectedCount :=
    if 0 < expectedIntervalSeconds then ⌊spanSeconds / expectedIntervalSeconds⌋ + 1 else 0
  let stalenessSeconds := latestIngestedAt.map fun latest => totalSeconds (now - latest)
  { instrumentId, timeframe, start, stop
    expectedBarCount := expectedCount
    actualBarCount := actualCount
    missingCount := max (expectedCount - actualCount) 0
    avgLatencySeconds := average latencySeconds
    maxLatencySeconds := latencySeconds.max?
    latestIngestedAt
    stalenessSeconds
    isStale :=
      match stalenessSeconds with
      | none => true
      | some staleness => staleAfterSeconds < staleness }

section Periods

variable (bars : MarketBars) (instrumentId : Nat) (timeframe : String) (start stop : Instant)
  (interval : ℚ)

/-- The row lies on point `k` of the window. -/
def LiesOn (start : Instant) (interval : ℚ) (r : RevisionRow BarKey BarValue) (k : ℕ) : Prop :=
  totalSeconds (r.key.eventTime - start) = k * interval

/-- The points at which a bar is expected. -/
def expectedPoints : Set ℕ := gridPoints interval (totalSeconds (stop - start))

/-- Those of them that have no bar, of any source. -/
def missingPoints : Set ℕ :=
  { k ∈ expectedPoints start stop interval |
    ∀ r ∈ bars.rows, r.key.instrumentId = instrumentId → r.key.timeframe = timeframe →
      ¬ LiesOn start interval r k }

/-- The bars of the window lie on its points. -/
def OnGrid : Prop :=
  ∀ r ∈ windowRows bars instrumentId timeframe start stop, ∃ k, LiesOn start interval r k

/-- Every point has a bar. -/
def Complete : Prop := missingPoints bars instrumentId timeframe start stop interval = ∅

/-- No two rows of the window are of one period: no bar was corrected, and none has a second
source. -/
def OneRowPerPeriod : Prop :=
  ((windowRows bars instrumentId timeframe start stop).map fun r => r.key.eventTime).Nodup

/-- The report counts periods. -/
structure CountsPeriods (report : MarketDataQualityReport) : Prop where
  expected : report.expectedBarCount = (expectedPoints start stop interval).ncard
  missing : report.missingCount =
    (missingPoints bars instrumentId timeframe start stop interval).ncard

end Periods

section Points

variable {bars : MarketBars} {instrumentId : Nat} {timeframe : String} {start stop : Instant}
  {interval : ℚ}

/-- The number of the point a row lies on. -/
def pointOf (start : Instant) (interval : ℚ) (r : RevisionRow BarKey BarValue) : ℕ :=
  ⌊totalSeconds (r.key.eventTime - start) / interval⌋₊

theorem totalSeconds_le_iff {a b : Int} : totalSeconds a ≤ totalSeconds b ↔ a ≤ b := by
  rw [totalSeconds, totalSeconds, div_le_div_iff_of_pos_right (by norm_num), Int.cast_le]

theorem totalSeconds_inj {a b : Int} (h : totalSeconds a = totalSeconds b) : a = b :=
  le_antisymm (totalSeconds_le_iff.mp h.le) (totalSeconds_le_iff.mp h.ge)

theorem liesOn_pointOf (hinterval : 0 < interval)
    (hgrid : OnGrid bars instrumentId timeframe start stop interval)
    {r : RevisionRow BarKey BarValue} (hr : r ∈ windowRows bars instrumentId timeframe start stop) :
    LiesOn start interval r (pointOf start interval r) := by
  obtain ⟨k, hk⟩ := hgrid r hr
  rw [pointOf, hk, mul_div_assoc, div_self hinterval.ne', mul_one, Nat.floor_natCast]
  exact hk

theorem mem_windowRows_iff {r : RevisionRow BarKey BarValue} :
    r ∈ windowRows bars instrumentId timeframe start stop ↔
      r ∈ bars.rows ∧ r.key.instrumentId = instrumentId ∧ r.key.timeframe = timeframe ∧
        start ≤ r.key.eventTime ∧ r.key.eventTime ≤ stop := by
  rw [windowRows, List.mem_filter, barFilter_iff]

variable (bars instrumentId timeframe start stop interval) in
/-- The points of the rows. -/
def coveredPoints : List ℕ :=
  (windowRows bars instrumentId timeframe start stop).map (pointOf start interval)

variable (start stop interval) in
/-- The points at which a bar is expected, counted. -/
def pointRange : Finset ℕ := Finset.range (⌊totalSeconds (stop - start) / interval⌋₊ + 1)

theorem totalSeconds_nonneg (hspan : start ≤ stop) : 0 ≤ totalSeconds (stop - start) := by
  have hmono := totalSeconds_le_iff.mpr (Int.sub_nonneg_of_le hspan)
  simpa [totalSeconds] using hmono

theorem expectedPoints_eq (hinterval : 0 < interval) (hspan : start ≤ stop) :
    expectedPoints start stop interval = pointRange start stop interval :=
  gridPoints_eq_range hinterval (totalSeconds_nonneg hspan)

theorem mem_pointRange_iff (hinterval : 0 < interval) (hspan : start ≤ stop) {k : ℕ} :
    k ∈ pointRange start stop interval ↔ k * interval ≤ totalSeconds (stop - start) := by
  rw [← Finset.mem_coe, ← expectedPoints_eq hinterval hspan, expectedPoints, mem_gridPoints]

variable (hinterval : 0 < interval) (hspan : start ≤ stop)
  (hgrid : OnGrid bars instrumentId timeframe start stop interval)

include hinterval hspan hgrid

theorem mem_pointRange_of_covered :
    ∀ k ∈ coveredPoints bars instrumentId timeframe start stop interval,
      k ∈ pointRange start stop interval := by
  intro k hk
  obtain ⟨r, hr, rfl⟩ := List.mem_map.mp hk
  have hlies : totalSeconds (r.key.eventTime - start) = _ := liesOn_pointOf hinterval hgrid hr
  rw [mem_pointRange_iff hinterval hspan, ← hlies]
  have hstop := (mem_windowRows_iff.mp hr).2.2.2.2
  exact totalSeconds_le_iff.mpr (Int.sub_le_sub_right hstop start)

/-- What is missing is what the rows do not cover. -/
theorem missingPoints_eq : missingPoints bars instrumentId timeframe start stop interval =
    (pointRange start stop interval \
      (coveredPoints bars instrumentId timeframe start stop interval).toFinset : Finset ℕ) := by
  ext k
  rw [missingPoints, expectedPoints_eq hinterval hspan, Finset.coe_sdiff, Set.mem_sep_iff,
    Set.mem_sdiff, Finset.mem_coe, Finset.mem_coe, List.mem_toFinset]
  refine and_congr_right fun hexpected => ?_
  rw [mem_pointRange_iff hinterval hspan] at hexpected
  constructor
  · intro hnone hcovered
    obtain ⟨r, hr, rfl⟩ := List.mem_map.mp hcovered
    obtain ⟨hmem, hinstrument, htimeframe, _⟩ := mem_windowRows_iff.mp hr
    exact hnone r hmem hinstrument htimeframe (liesOn_pointOf hinterval hgrid hr)
  · intro hcovered r hmem hinstrument htimeframe hlies
    have hnumber : (0 : ℚ) ≤ k * interval := mul_nonneg k.cast_nonneg hinterval.le
    have hlow : totalSeconds 0 ≤ totalSeconds (r.key.eventTime - start) := by
      rw [show totalSeconds (r.key.eventTime - start) = k * interval from hlies]
      simpa [totalSeconds] using hnumber
    have hhigh : totalSeconds (r.key.eventTime - start) ≤ totalSeconds (stop - start) :=
      hexpected.trans' hlies.le
    rw [totalSeconds_le_iff] at hlow hhigh
    have hwindow : r ∈ windowRows bars instrumentId timeframe start stop :=
      mem_windowRows_iff.mpr ⟨hmem, hinstrument, htimeframe, Int.le_of_sub_nonneg hlow,
        Int.le_of_sub_le_sub_right hhigh⟩
    refine hcovered (List.mem_map.mpr ⟨r, hwindow, ?_⟩)
    rw [pointOf, show totalSeconds (r.key.eventTime - start) = k * interval from hlies,
      mul_div_assoc, div_self hinterval.ne', mul_one, Nat.floor_natCast]

omit hspan in
/-- Two rows are of one period when they lie on one point. -/
theorem oneRowPerPeriod_iff : OneRowPerPeriod bars instrumentId timeframe start stop ↔
    (coveredPoints bars instrumentId timeframe start stop interval).Nodup := by
  have hcovered : coveredPoints bars instrumentId timeframe start stop interval =
      ((windowRows bars instrumentId timeframe start stop).map fun r => r.key.eventTime).map
        fun t => ⌊totalSeconds (t - start) / interval⌋₊ := by
    rw [List.map_map]
    rfl
  rw [hcovered]
  constructor
  · intro hnodup
    refine hnodup.map_on fun t ht t' ht' hsame => ?_
    obtain ⟨r, hr, rfl⟩ := List.mem_map.mp ht
    obtain ⟨r', hr', rfl⟩ := List.mem_map.mp ht'
    have hlies : totalSeconds (r.key.eventTime - start) = _ := liesOn_pointOf hinterval hgrid hr
    have hlies' : totalSeconds (r'.key.eventTime - start) = _ :=
      liesOn_pointOf hinterval hgrid hr'
    have hpoint : pointOf start interval r = pointOf start interval r' := hsame
    rw [hpoint, ← hlies'] at hlies
    exact sub_left_inj.mp (totalSeconds_inj hlies)
  · exact List.Nodup.of_map _

theorem complete_iff : Complete bars instrumentId timeframe start stop interval ↔
    pointRange start stop interval ⊆
      (coveredPoints bars instrumentId timeframe start stop interval).toFinset := by
  rw [Complete, missingPoints_eq hinterval hspan hgrid, Finset.coe_eq_empty,
    Finset.sdiff_eq_empty_iff_subset]

end Points

/-! ## What the report counts -/

section Report

variable (bars : MarketBars) (instrumentId : Nat) (timeframe : String) {start stop : Instant}
  {interval : ℚ} (hinterval : 0 < interval) (hspan : start ≤ stop)
  (staleAfterSeconds : ℚ) (now : Option Instant) (clock : Instant)

include hinterval hspan

/-- The expected number is that of the points. -/
theorem expectedBarCount_eq :
    (computeMarketDataQuality bars instrumentId timeframe start stop interval staleAfterSeconds
      now clock).expectedBarCount = (pointRange start stop interval).card := by
  show (if 0 < interval then _ else _ : Int) = _
  rw [if_pos hinterval, pointRange, Finset.card_range, Nat.cast_succ,
    Int.natCast_floor_eq_floor (div_nonneg (totalSeconds_nonneg hspan) hinterval.le)]

theorem missingCount_eq :
    (computeMarketDataQuality bars instrumentId timeframe start stop interval staleAfterSeconds
      now clock).missingCount = ((pointRange start stop interval).card -
        (coveredPoints bars instrumentId timeframe start stop interval).length : ℕ) := by
  have hexpected := expectedBarCount_eq bars instrumentId timeframe hinterval hspan
    staleAfterSeconds now clock
  have hlength : (coveredPoints bars instrumentId timeframe start stop interval).length =
      (windowRows bars instrumentId timeframe start stop).length := List.length_map _
  show max ((computeMarketDataQuality bars instrumentId timeframe start stop interval
    staleAfterSeconds now clock).expectedBarCount - _) 0 = _
  rw [hexpected, hlength]
  omega

/-- The report counts periods exactly when no period of the window is missing or none has two
rows. -/
theorem report_counts_periods_iff
    (hgrid : OnGrid bars instrumentId timeframe start stop interval) :
    CountsPeriods bars instrumentId timeframe start stop interval
        (computeMarketDataQuality bars instrumentId timeframe start stop interval
          staleAfterSeconds now clock) ↔
      Complete bars instrumentId timeframe start stop interval ∨
        OneRowPerPeriod bars instrumentId timeframe start stop := by
  have hexpected := expectedBarCount_eq bars instrumentId timeframe hinterval hspan
    staleAfterSeconds now clock
  have hmissing := missingCount_eq bars instrumentId timeframe hinterval hspan
    staleAfterSeconds now clock
  rw [complete_iff hinterval hspan hgrid, oneRowPerPeriod_iff hinterval hgrid,
    ← card_sub_length_eq_iff (mem_pointRange_of_covered hinterval hspan hgrid)]
  constructor
  · intro hcounts
    have hcount := hcounts.missing
    rw [hmissing, missingPoints_eq hinterval hspan hgrid, Set.ncard_coe_finset] at hcount
    exact_mod_cast hcount
  · intro hcount
    refine ⟨?_, ?_⟩
    · rw [hexpected, expectedPoints_eq hinterval hspan, Set.ncard_coe_finset]
    · rw [hmissing, missingPoints_eq hinterval hspan hgrid, Set.ncard_coe_finset, hcount]

end Report

/-- The bar of a minute as it became available at some instant. -/
def minuteBar (eventTime availableAt : Instant) : BarInput :=
  { key := { instrumentId := 1, timeframe := "1m", eventTime, source := "toss_openapi" }
    availableAt, ingestedAt := availableAt
    value :=
      { openPrice := .ofInt 1, highPrice := .ofInt 1, lowPrice := .ofInt 1
        closePrice := .ofInt 1, volume := .ofInt 1, currency := none } }

/-- The first of two minutes, and its correction. -/
def correctedMinute : MarketBars :=
  (upsertBars Table.empty [minuteBar 0 0, minuteBar 0 60000000]).1

/-- The first of two minutes. -/
def oneMinute : MarketBars := (upsertBars Table.empty [minuteBar 0 0]).1

theorem onGrid_of_start {bars : MarketBars} {instrumentId : Nat} {timeframe : String}
    {start stop : Instant} {interval : ℚ} (h : ∀ r ∈ bars.rows, r.key.eventTime = start) :
    OnGrid bars instrumentId timeframe start stop interval := by
  intro r hr
  refine ⟨0, ?_⟩
  rw [LiesOn, h r (mem_windowRows_iff.mp hr).1]
  simp [totalSeconds]

/-- Of two minutes one is missing, and is not counted for the correction of the other. -/
theorem correction_hides_gap :
    OnGrid correctedMinute 1 "1m" 0 60000000 60 ∧
      ¬ CountsPeriods correctedMinute 1 "1m" 0 60000000 60
        (computeMarketDataQuality correctedMinute 1 "1m" 0 60000000 60 3600 none 0) := by
  have hgrid : OnGrid correctedMinute 1 "1m" 0 60000000 60 := onGrid_of_start (by decide)
  refine ⟨hgrid, fun hcounts => ?_⟩
  have hmissing := hcounts.missing
  rw [missingPoints_eq (by norm_num) (by decide) hgrid, Set.ncard_coe_finset] at hmissing
  revert hmissing
  decide +kernel

theorem one_minute_counted :
    CountsPeriods oneMinute 1 "1m" 0 60000000 60
      (computeMarketDataQuality oneMinute 1 "1m" 0 60000000 60 3600 none 0) :=
  (report_counts_periods_iff oneMinute 1 "1m" (by norm_num) (by decide) 3600 none 0
    (onGrid_of_start (by decide))).mpr (.inr (show List.Nodup _ by decide))

end Db
end QuantPlatform
