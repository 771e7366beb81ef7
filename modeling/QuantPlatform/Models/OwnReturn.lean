/-
Which return a label measures.

The label is that of the sample's own bar when the two windows meet in it and
the bar `horizon_days` positions on is that many periods away.  Where two sources
report one of the periods between, the second fails; the return is right all the
same if the closes happen to agree, so the converse is about every choice of
closes.
-/
import QuantPlatform.Models.Leakage

namespace QuantPlatform
namespace Models

open Db Relational Raise

/-- The features end and the label starts with the bar at `as_of`. -/
def EntersAtOwnBar (asOf : Instant) (featureBars labelBars : List MarketBarRow) : Prop :=
  ∃ own entry, featureBars.getLast? = some own ∧ labelBars[0]? = some entry ∧
    own.eventTime = asOf ∧ entry.eventTime = own.eventTime

/-- The label measures the return from the sample's own bar: its entry is of the
period of the last feature bar, the one at `as_of`, and its return is that to a
bar of the `n`-th period after. -/
def MeasuresOwnReturn (bars : MarketBars) (instrumentId : Nat) (timeframe : String)
    (asOf dataAsOf : Instant) (n : Nat) (featureBars labelBars : List MarketBarRow)
    (forwardReturn : Decimal) : Prop :=
  ∃ own entry forward, featureBars.getLast? = some own ∧ labelBars[0]? = some entry ∧
    own.eventTime = asOf ∧ entry.eventTime = own.eventTime ∧
    IsVisibleBar bars instrumentId timeframe dataAsOf forward ∧
    IsNthAfter (knownPeriods bars instrumentId timeframe dataAsOf) entry.eventTime n
      forward.eventTime ∧
    Decimal.changeFrom entry.closePrice forward.closePrice = .ok forwardReturn

/-- There is a bar at `as_of`, available by then and by `data_as_of`. -/
def OwnBarKnown (bars : MarketBars) (instrumentId : Nat) (timeframe : String)
    (asOf dataAsOf : Instant) : Prop :=
  asOf ∈ knownPeriods bars instrumentId timeframe asOf ∧
    asOf ∈ knownPeriods bars instrumentId timeframe dataAsOf

/-- There is a bar at `as_of`, and no two sources share a period from it up to the
`n`-th one after it. -/
def OwnReturnReadable (bars : MarketBars) (instrumentId : Nat) (timeframe : String)
    (asOf dataAsOf : Instant) (n : Nat) : Prop :=
  OwnBarKnown bars instrumentId timeframe asOf dataAsOf ∧
    ∃ t, IsNthAfter (knownPeriods bars instrumentId timeframe dataAsOf) asOf n t ∧
      OneSourcePerPeriod bars instrumentId timeframe asOf (t - 1) dataAsOf

section Repriced

def withClose (close : Decimal) (r : RevisionRow BarKey BarValue) : RevisionRow BarKey BarValue :=
  { r with value := { r.value with closePrice := close } }

/-- The bars with other closes, of the same periods, sources and revisions. -/
def repriced (closeOf : RevisionRow BarKey BarValue → Decimal) (bars : MarketBars) : MarketBars :=
  Table.map (f := fun r => withClose (closeOf r) r) (fun _ => rfl) bars

variable {closeOf : RevisionRow BarKey BarValue → Decimal} {bars : MarketBars}

theorem mem_repriced_iff {r : RevisionRow BarKey BarValue} :
    r ∈ (repriced closeOf bars).rows ↔
      ∃ r' ∈ bars.rows, withClose (closeOf r') r' = r :=
  List.mem_map

theorem repriced_closePrice (bars : MarketBars) :
    repriced (fun r => r.value.closePrice) bars = bars :=
  Table.eq_of_rows_eq (List.map_id bars.rows)

/-- Closes that change from an instant on leave the bars before it alone. -/
theorem agreeBefore_repriced {bound : Instant}
    (hsame : ∀ r ∈ bars.rows, r.key.eventTime < bound → closeOf r = r.value.closePrice) :
    AgreeBefore bound bars (repriced closeOf bars) := by
  intro r hr
  rw [mem_repriced_iff]
  constructor
  · intro hmem
    refine ⟨r, hmem, ?_⟩
    rw [hsame r hmem hr]
    rfl
  · intro h
    obtain ⟨r', hmem, rfl⟩ := h
    rw [hsame r' hmem hr]
    exact hmem

theorem knownPeriods_repriced (instrumentId : Nat) (timeframe : String) (asOf : Instant) :
    knownPeriods (repriced closeOf bars) instrumentId timeframe asOf =
      knownPeriods bars instrumentId timeframe asOf := by
  ext t
  simp only [mem_knownPeriods_iff, mem_repriced_iff, exists_exists_and_eq_and]
  rfl

theorem oneSourcePerPeriod_repriced_iff {instrumentId : Nat} {timeframe : String}
    {start stop asOf : Instant} :
    OneSourcePerPeriod (repriced closeOf bars) instrumentId timeframe start stop asOf ↔
      OneSourcePerPeriod bars instrumentId timeframe start stop asOf := by
  simp only [OneSourcePerPeriod, mem_repriced_iff, forall_exists_index, and_imp,
    forall_apply_eq_imp_iff₂]
  rfl

/-- Whether an own return can be read does not depend on the closes. -/
theorem ownReturnReadable_repriced_iff {instrumentId : Nat} {timeframe : String}
    {asOf dataAsOf : Instant} {n : Nat} :
    OwnReturnReadable (repriced closeOf bars) instrumentId timeframe asOf dataAsOf n ↔
      OwnReturnReadable bars instrumentId timeframe asOf dataAsOf n := by
  simp only [OwnReturnReadable, OwnBarKnown, knownPeriods_repriced,
    oneSourcePerPeriod_repriced_iff]

end Repriced

namespace DatasetBuilder

variable {F : Type} [FloatArithmetic F]

/-- Whichever label the date gets, it measures the return from the sample's own bar. -/
def LabelsMeasureOwnReturn (F : Type) [FloatArithmetic F] (builder : DatasetBuilder) (n : Nat)
    (bars : MarketBars) (instrumentId : Nat) (symbol : String) (asOf dataAsOf : Instant) : Prop :=
  ∀ (reads : DatasetReads) (s : DatasetSample F) (featureBars labelBars : List MarketBarRow),
    builder.buildSample reads bars instrumentId symbol asOf dataAsOf = .ok (.sample s) →
    builder.featureBars reads.features bars instrumentId asOf = .ok featureBars →
    builder.labelBars reads.labels bars instrumentId asOf dataAsOf = .ok labelBars →
    MeasuresOwnReturn bars instrumentId builder.timeframe asOf dataAsOf n featureBars labelBars
      s.forwardReturn

section Pass

variable {builder : DatasetBuilder} {n : Nat} {reads : DatasetReads} {bars : MarketBars}
  {instrumentId : Nat} {symbol : String} {asOf dataAsOf : Instant} {s : DatasetSample F}
  {featureBars labelBars : List MarketBarRow}
  (hhorizon : builder.labelDefinition.horizonDays = n)
  (hemitted : builder.buildSample reads bars instrumentId symbol asOf dataAsOf = .ok (.sample s))
  (hfeatureBars : builder.featureBars reads.features bars instrumentId asOf = .ok featureBars)
  (hlabelBars : builder.labelBars reads.labels bars instrumentId asOf dataAsOf = .ok labelBars)

include hhorizon hemitted hlabelBars

/-- The two bars a label compares, whose return is a number. -/
theorem exists_compared :
    ∃ entry last, labelBars[0]? = some entry ∧ labelBars[n]? = some last ∧
      Decimal.changeFrom entry.closePrice last.closePrice = .ok s.forwardReturn ∧
      s.forwardReturn ≠ .nan := by
  obtain ⟨_, _, labelBars', labelResult, _, _, _, hlabelBars', hlabelResult, hlabel, hreturn, _⟩ :=
    buildSample_eq_sample_iff.mp hemitted
  obtain rfl : labelBars = labelBars' := Except.ok.inj (hlabelBars.symm.trans hlabelBars')
  obtain ⟨entry, last, hentry, hlast, hchange⟩ :=
    computeForwardReturnLabel_labelled hhorizon hlabelResult hlabel hreturn
  exact ⟨entry, last, hentry, hlast, hchange, ne_nan_of_labelled hhorizon hlabelResult hreturn⟩

include hfeatureBars

/-- The windows meet in the bar at `as_of` exactly when it is known to both. -/
theorem entersAtOwnBar_iff :
    EntersAtOwnBar asOf featureBars labelBars ↔
      OwnBarKnown bars instrumentId builder.timeframe asOf dataAsOf := by
  obtain ⟨entry, _, hentry, _⟩ := exists_compared hhorizon hemitted hlabelBars
  obtain ⟨featureBars', featureResult, _, _, hfeatureBars', hfeatures, hvector, _⟩ :=
    buildSample_eq_sample_iff.mp hemitted
  obtain rfl : featureBars = featureBars' := Except.ok.inj (hfeatureBars.symm.trans hfeatureBars')
  obtain ⟨start, _, hfeatureWindow⟩ := bind_eq_ok_iff.mp hfeatureBars
  obtain ⟨stop, _, hlabelWindow⟩ := bind_eq_ok_iff.mp hlabelBars
  have hne : featureBars ≠ [] := by
    intro hnil
    have hlength := length_of_computeFeatures hfeatures hvector
    rw [hnil] at hlength
    exact absurd hlength (by decide)
  obtain ⟨own, hown⟩ : ∃ own, featureBars.getLast? = some own :=
    ⟨_, List.getLast?_eq_some_getLast hne⟩
  cases Except.ok.inj hfeatureWindow
  cases Except.ok.inj hlabelWindow
  have hownIff := last_eventTime_eq_iff hown
  have hentryIff := first_eventTime_eq_iff hentry
  constructor
  · intro h
    obtain ⟨own', entry', hown', hentry', hownTime, hentryTime⟩ := h
    obtain rfl : own = own' := Option.some.inj (hown.symm.trans hown')
    obtain rfl : entry = entry' := Option.some.inj (hentry.symm.trans hentry')
    exact ⟨hownIff.mp hownTime, hentryIff.mp (hentryTime.trans hownTime)⟩
  · intro h
    exact ⟨own, entry, hown, hentry, hownIff.mpr h.1,
      (hentryIff.mpr h.2).trans (hownIff.mpr h.1).symm⟩

/-- With one source for each period before the `n`-th, the label is right. -/
theorem measuresOwnReturn_of_readable (hn : 1 ≤ n)
    (h : OwnReturnReadable bars instrumentId builder.timeframe asOf dataAsOf n) :
    MeasuresOwnReturn bars instrumentId builder.timeframe asOf dataAsOf n featureBars labelBars
      s.forwardReturn := by
  obtain ⟨hknown, t, hnth, hone⟩ := h
  obtain ⟨own, entry, hown, hentry, hownTime, hentryTime⟩ :=
    (entersAtOwnBar_iff hhorizon hemitted hfeatureBars hlabelBars).mpr hknown
  obtain ⟨entry', last, hentry', hlast, hchange, _⟩ :=
    exists_compared hhorizon hemitted hlabelBars
  obtain rfl : entry = entry' := Option.some.inj (hentry.symm.trans hentry')
  obtain ⟨stop, _, hlabelWindow⟩ := bind_eq_ok_iff.mp hlabelBars
  cases Except.ok.inj hlabelWindow
  rw [← hentryTime.trans hownTime] at hnth hone
  have hlastTime := eventTime_eq_nth hn hentry hlast hnth hone
  have hvisible := (mem_getBarsAsOf_iff_isVisibleBar.mp (List.mem_of_getElem? hlast)).1
  exact ⟨own, entry, last, hown, hentry, hownTime, hentryTime, hvisible, hlastTime ▸ hnth, hchange⟩

omit hfeatureBars in
/-- A label that is right whatever the closes are is so by its periods. -/
theorem readable_of_labelsMeasureOwnReturn (hn : 1 ≤ n)
    (h : ∀ closeOf, builder.LabelsMeasureOwnReturn F n (repriced closeOf bars) instrumentId symbol
      asOf dataAsOf) :
    OwnReturnReadable bars instrumentId builder.timeframe asOf dataAsOf n := by
  obtain ⟨featureBars, _, _, _, hfeatureBars, _⟩ := buildSample_eq_sample_iff.mp hemitted
  have hown := h fun r => r.value.closePrice
  rw [repriced_closePrice] at hown
  obtain ⟨own, entry, forward, hown, hentry, hownTime, hentryTime, _, hnth, _⟩ :=
    hown reads s featureBars labelBars hemitted hfeatureBars hlabelBars
  have hknown := (entersAtOwnBar_iff hhorizon hemitted hfeatureBars hlabelBars).mp
    ⟨own, entry, hown, hentry, hownTime, hentryTime⟩
  obtain ⟨entry', last, hentry', hlast, _, hnumber⟩ := exists_compared hhorizon hemitted hlabelBars
  obtain rfl : entry = entry' := Option.some.inj (hentry.symm.trans hentry')
  obtain ⟨stop, _, hlabelWindow⟩ := bind_eq_ok_iff.mp hlabelBars
  cases Except.ok.inj hlabelWindow
  have hentryAsOf := hentryTime.trans hownTime
  refine ⟨hknown, forward.eventTime, hentryAsOf ▸ hnth, hentryAsOf ▸
    oneSourcePerPeriod_of_eventTime_eq hentry hlast hnth ?_⟩
  by_contra hne
  have hlt : last.eventTime < forward.eventTime :=
    lt_of_le_of_ne (eventTime_le_nth hn hentry hlast hnth) hne
  -- The label does not see a `NaN` that the bars of its own period are given.
  let closeOf : RevisionRow BarKey BarValue → Decimal := fun r =>
    if r.key.eventTime = forward.eventTime then .nan else r.value.closePrice
  have hagree : AgreeBefore forward.eventTime bars (repriced closeOf bars) :=
    agreeBefore_repriced fun r _ hr => if_neg (ne_of_lt hr)
  obtain ⟨reads', featureBars', labelBars', hfeatureBars', hlabelBars', hget, hemitted'⟩ :=
    exists_pass_of_agreeBefore hhorizon hagree hemitted hlabelBars hlast hlt
  obtain ⟨_, entry', forward', _, hentry', _, _, hvisible, hnth', hchange⟩ :=
    h closeOf reads' s featureBars' labelBars' hemitted' hfeatureBars' hlabelBars'
  obtain rfl : entry = entry' :=
    Option.some.inj (hentry.symm.trans ((hget 0 (Nat.zero_le n)).symm.trans hentry'))
  rw [knownPeriods_repriced] at hnth'
  have htime : forward'.eventTime = forward.eventTime := hnth'.unique hn hnth
  obtain ⟨_, _, r, hr, rfl⟩ := hvisible
  obtain ⟨r', _, rfl⟩ := mem_repriced_iff.mp hr.1
  have hclose : closeOf r' = .nan := if_pos htime
  have hnan : Decimal.changeFrom entry.closePrice (closeOf r') = .ok s.forwardReturn := hchange
  rw [hclose, Decimal.changeFrom_nan] at hnan
  exact hnumber (Except.ok.inj hnan).symm

end Pass

end DatasetBuilder

section Label

variable {F : Type} [FloatArithmetic F]

/-- For every date that gives a sample: the windows meet in the sample's own bar
exactly when that is known, its label measures the return from there if that
return can be read, and does so whatever the closes are only then. -/
theorem sample_measures_own_return_iff (builder : DatasetBuilder) (n : Nat) (hn : 1 ≤ n)
    (hhorizon : builder.labelDefinition.horizonDays = n) (reads : Nat → DatasetReads)
    (bars : MarketBars) (instrumentId : Nat) (symbol : String) (asOfDates : List Instant)
    (dataAsOf : Instant) (result : DatasetBuildResult F)
    (hbuild : builder.build reads bars instrumentId symbol asOfDates dataAsOf = .ok result)
    (turn : Nat) (asOf : Instant) (hturn : asOfDates[turn]? = some asOf) (s : DatasetSample F)
    (hemitted : builder.buildSample (reads turn) bars instrumentId symbol asOf dataAsOf =
      .ok (.sample s))
    (featureBars labelBars : List MarketBarRow)
    (hfeatureBars : builder.featureBars (reads turn).features bars instrumentId asOf =
      .ok featureBars)
    (hlabelBars : builder.labelBars (reads turn).labels bars instrumentId asOf dataAsOf =
      .ok labelBars) :
    s ∈ result.samples ∧ s.asOf = asOf ∧
      (EntersAtOwnBar asOf featureBars labelBars ↔
        OwnBarKnown bars instrumentId builder.timeframe asOf dataAsOf) ∧
      (OwnReturnReadable bars instrumentId builder.timeframe asOf dataAsOf n →
        MeasuresOwnReturn bars instrumentId builder.timeframe asOf dataAsOf n featureBars labelBars
          s.forwardReturn) ∧
      ((∀ closeOf, builder.LabelsMeasureOwnReturn F n (repriced closeOf bars) instrumentId symbol
          asOf dataAsOf) ↔
        OwnReturnReadable bars instrumentId builder.timeframe asOf dataAsOf n) := by
  obtain ⟨_, _, _, _, _, _, _, _, _, _, _, _, _, hasOf⟩ :=
    DatasetBuilder.buildSample_eq_sample_iff.mp hemitted
  refine ⟨(DatasetBuilder.mem_samples_iff hbuild s).mpr ⟨turn, asOf, hturn, hemitted⟩, hasOf,
    DatasetBuilder.entersAtOwnBar_iff hhorizon hemitted hfeatureBars hlabelBars,
    DatasetBuilder.measuresOwnReturn_of_readable hhorizon hemitted hfeatureBars hlabelBars hn,
    DatasetBuilder.readable_of_labelsMeasureOwnReturn hhorizon hemitted hlabelBars hn, ?_⟩
  intro h closeOf reads' s' featureBars' labelBars' hemitted' hfeatureBars' hlabelBars'
  exact DatasetBuilder.measuresOwnReturn_of_readable hhorizon hemitted' hfeatureBars' hlabelBars' hn
    (ownReturnReadable_repriced_iff.mpr h)

end Label

/-- As the day 20 ends, its bar is there: the label is the return of 2.5 percent
from it to day 21, and would be that return at any other prices. -/
theorem rising_sample_measures_own_return :
    MeasuresOwnReturn risingBars 1 "1d" (hours 480) (hours 528) 1
        (getBarsAsOf (OrderBy.byColumn _) risingBars 1 "1d" (hours (-480)) (hours 480) (hours 480))
        (getBarsAsOf (OrderBy.byColumn _) risingBars 1 "1d" (hours 480) (hours 600) (hours 528))
        (.finite false 25 (-3)) ∧
      ∀ closeOf, nextDayBuilder.LabelsMeasureOwnReturn ℚ 1 (repriced closeOf risingBars) 1 "005930"
        (hours 480) (hours 528) := by
  obtain ⟨s, hemitted, hreturn⟩ :
      ∃ s : DatasetSample ℚ, nextDayBuilder.buildSample DatasetReads.stable risingBars 1 "005930"
        (hours 480) (hours 528) = .ok (.sample s) ∧ s.forwardReturn = .finite false 25 (-3) :=
    SampleOutcome.exists_sample (by decide +kernel)
  have hreadable : OwnReturnReadable risingBars 1 "1d" (hours 480) (hours 528) 1 :=
    ⟨⟨by decide +kernel, by decide +kernel⟩, hours 504, by decide +kernel, by decide +kernel⟩
  obtain ⟨_, _, _, hmeasures, hclosesIff⟩ :=
    sample_measures_own_return_iff nextDayBuilder 1 le_rfl rfl (fun _ => DatasetReads.stable)
      risingBars 1 "005930" [hours 480] (hours 528) _ (DatasetBuilder.build_singleton hemitted) 0
      (hours 480) rfl s hemitted _ _ rfl rfl
  exact ⟨hreturn ▸ hmeasures hreadable, hclosesIff.mpr hreadable⟩

/-- At noon of the day after, the last feature bar is that of day 20 and the
entry bar that of day 21. -/
theorem noon_sample_measures_other_return :
    ¬ ∀ (builder : DatasetBuilder) (n : Nat), 1 ≤ n → builder.labelDefinition.horizonDays = n →
      ∀ (reads : Nat → DatasetReads) (bars : MarketBars) (instrumentId : Nat) (symbol : String)
        (asOfDates : List Instant) (dataAsOf : Instant) (result : DatasetBuildResult ℚ),
      builder.build reads bars instrumentId symbol asOfDates dataAsOf = .ok result →
      ∀ (turn : Nat) (asOf : Instant) (s : DatasetSample ℚ), asOfDates[turn]? = some asOf →
      builder.buildSample (reads turn) bars instrumentId symbol asOf dataAsOf =
        .ok (.sample s) →
      ∀ featureBars labelBars : List MarketBarRow,
      builder.featureBars (reads turn).features bars instrumentId asOf = .ok featureBars →
      builder.labelBars (reads turn).labels bars instrumentId asOf dataAsOf = .ok labelBars →
      MeasuresOwnReturn bars instrumentId builder.timeframe asOf dataAsOf n featureBars labelBars
        s.forwardReturn := by
  intro h
  obtain ⟨s, hemitted, _⟩ :
      ∃ s : DatasetSample ℚ, nextDayBuilder.buildSample DatasetReads.stable risingBars 1 "005930"
        (hours 492) (hours 528) = .ok (.sample s) ∧ s.asOf = hours 492 :=
    SampleOutcome.exists_sample (by decide +kernel)
  obtain ⟨own, entry, forward, hown, _, hownTime, _⟩ :=
    h nextDayBuilder 1 le_rfl rfl (fun _ => DatasetReads.stable) risingBars 1 "005930"
      [hours 492] (hours 528) _ (DatasetBuilder.build_singleton hemitted) 0 (hours 492) s rfl
      hemitted _ _ rfl rfl
  exact absurd ((last_eventTime_eq_iff hown).mp hownTime) (by decide +kernel)

end Models
end QuantPlatform
