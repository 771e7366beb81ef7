/-
What a training sample depends on.

A sample is trained on for its `as_of`, but its label reads on to the bar
`horizon_days` positions further, its horizon.  The sample is settled by the bars
before an instant when its horizon is, and not before: without the horizon bar
the date gives no sample.  The split looks at `as_of` alone.
-/
import QuantPlatform.Models.Alignment
import QuantPlatform.Models.Training

namespace QuantPlatform
namespace Models

open Db Relational Raise

/-- Two tables hold the same bars of the periods before an instant. -/
def AgreeBefore (bound : Instant) (bars bars' : MarketBars) : Prop :=
  ∀ r : RevisionRow BarKey BarValue, r.key.eventTime < bound → (r ∈ bars.rows ↔ r ∈ bars'.rows)

/-- The table without the periods from an instant on. -/
def barsBefore (bound : Instant) (bars : MarketBars) : MarketBars :=
  bars.restrict fun r => decide (r.key.eventTime < bound)

theorem mem_barsBefore_iff {bound : Instant} {bars : MarketBars}
    {r : RevisionRow BarKey BarValue} :
    r ∈ (barsBefore bound bars).rows ↔ r ∈ bars.rows ∧ r.key.eventTime < bound := by
  show r ∈ bars.rows.filter _ ↔ _
  rw [List.mem_filter, decide_eq_true_eq]

theorem agreeBefore_barsBefore (bound : Instant) (bars : MarketBars) :
    AgreeBefore bound bars (barsBefore bound bars) := by
  intro r hr
  rw [mem_barsBefore_iff, and_iff_left hr]

theorem AgreeBefore.symm {bound : Instant} {bars bars' : MarketBars}
    (h : AgreeBefore bound bars bars') : AgreeBefore bound bars' bars :=
  fun r hr => (h r hr).symm

/-! ## Reads of agreeing tables -/

section Reads

variable {bound : Instant} {bars bars' : MarketBars} {instrumentId : Nat} {timeframe : String}
  {start stop asOf : Instant}

/-- A window that ends before the instant may read the same in both. -/
theorem AgreeBefore.exists_getBarsAsOf_eq (h : AgreeBefore bound bars bars') (hstop : stop < bound)
    (order : BarOrder) :
    ∃ order' : BarOrder, getBarsAsOf order' bars' instrumentId timeframe start stop asOf =
      getBarsAsOf order bars instrumentId timeframe start stop asOf := by
  have hperm :
      (latestRevisions bars (fun r => barFilter instrumentId timeframe start stop r.key) asOf).Perm
        (latestRevisions bars' (fun r => barFilter instrumentId timeframe start stop r.key)
          asOf) :=
    latestRevisions_perm_of_filters fun r hfilter _ =>
      h r (lt_of_le_of_lt ((barFilter_iff ..).mp hfilter).2.2.2 hstop)
  obtain ⟨order', horder'⟩ :=
    order.exists_arrange_eq ((order.perm _).trans hperm) (order.sorted _)
  exact ⟨order', congrArg (List.map MarketBarRow.ofRow) horder'⟩

/-- The current revisions of the periods before the instant are the same. -/
theorem AgreeBefore.latestRevisions_perm (h : AgreeBefore bound bars bars') (p : BarKey → Bool) :
    ((latestRevisions bars (fun r => p r.key) asOf).filter fun r => r.key.eventTime < bound).Perm
      ((latestRevisions bars' (fun r => p r.key) asOf).filter
        fun r => r.key.eventTime < bound) := by
  have hnodup : ∀ table : MarketBars,
      ((latestRevisions table (fun r => p r.key) asOf).filter
        fun r => r.key.eventTime < bound).Nodup :=
    fun table => ((keys_latestRevisions_nodup ..).of_map _).filter _
  have hcurrent : ∀ r : RevisionRow BarKey BarValue, r.key.eventTime < bound →
      (IsCurrent bars asOf r ↔ IsCurrent bars' asOf r) := by
    intro r hr
    unfold IsCurrent
    rw [h r hr]
    refine and_congr_right fun _ => and_congr_right fun _ => forall_congr' fun s => ?_
    constructor
    · intro hle hs hkey
      exact hle ((h s (hkey ▸ hr)).mpr hs) hkey
    · intro hle hs hkey
      exact hle ((h s (hkey ▸ hr)).mp hs) hkey
  rw [List.perm_ext_iff_of_nodup (hnodup bars) (hnodup bars')]
  intro r
  rw [List.mem_filter, List.mem_filter, mem_latestRevisions_of_keyFilter,
    mem_latestRevisions_of_keyFilter, decide_eq_true_eq]
  refine and_congr_left fun hr => ?_
  rw [hcurrent r hr]

/-- A read whose row `n` is before the instant may have the same rows up to it in both. -/
theorem AgreeBefore.exists_getElem?_eq (h : AgreeBefore bound bars bars') {order : BarOrder}
    {n : Nat} {last : MarketBarRow}
    (hlast : (getBarsAsOf order bars instrumentId timeframe start stop asOf)[n]? = some last)
    (hbefore : last.eventTime < bound) :
    ∃ order' : BarOrder, ∀ i ≤ n,
      (getBarsAsOf order' bars' instrumentId timeframe start stop asOf)[i]? =
        (getBarsAsOf order bars instrumentId timeframe start stop asOf)[i]? := by
  unfold getBarsAsOf selectLatestRevisionAsOf at *
  rw [List.getElem?_map, Option.map_eq_some_iff] at hlast
  obtain ⟨r, hr, rfl⟩ := hlast
  obtain ⟨order', horder'⟩ := exists_prefix_arrangement order order
    (h.latestRevisions_perm (barFilter instrumentId timeframe start stop)) hr hbefore
  refine ⟨order', fun i hi => ?_⟩
  rw [List.getElem?_map, List.getElem?_map,
    ← List.getElem?_take_of_lt (Nat.lt_succ_of_le hi), horder',
    List.getElem?_take_of_lt (Nat.lt_succ_of_le hi)]

/-- As many rows of a read are before the instant in the one as in the other. -/
theorem AgreeBefore.length_filter_eq (h : AgreeBefore bound bars bars') (order order' : BarOrder) :
    ((getBarsAsOf order bars instrumentId timeframe start stop asOf).filter
      fun row => row.eventTime < bound).length =
      ((getBarsAsOf order' bars' instrumentId timeframe start stop asOf).filter
        fun row => row.eventTime < bound).length := by
  have hcount : ∀ (o : BarOrder) (table : MarketBars),
      ((getBarsAsOf o table instrumentId timeframe start stop asOf).filter
        fun row => row.eventTime < bound).length =
        ((latestRevisions table (fun r => barFilter instrumentId timeframe start stop r.key)
          asOf).filter fun r => r.key.eventTime < bound).length := by
    intro o table
    unfold getBarsAsOf selectLatestRevisionAsOf
    rw [List.filter_map, List.length_map]
    exact ((o.perm _).filter _).length_eq
  rw [hcount, hcount]
  exact (h.latestRevisions_perm (barFilter instrumentId timeframe start stop)).length_eq

end Reads

/-! ## The samples of agreeing tables -/

namespace DatasetBuilder

variable {F : Type} [FloatArithmetic F]

/-- Some run of a date gives the sample. -/
def Emits (builder : DatasetBuilder) (bars : MarketBars) (instrumentId : Nat) (symbol : String)
    (asOf dataAsOf : Instant) (s : DatasetSample F) : Prop :=
  ∃ reads : DatasetReads,
    builder.buildSample reads bars instrumentId symbol asOf dataAsOf = .ok (.sample s)

/-- The bars before an instant settle which samples a date may give. -/
def SettledBefore (F : Type) [FloatArithmetic F] (builder : DatasetBuilder) (bound : Instant)
    (bars : MarketBars) (instrumentId : Nat) (symbol : String) (asOf dataAsOf : Instant) : Prop :=
  ∀ bars', AgreeBefore bound bars bars' → ∀ s : DatasetSample F,
    builder.Emits bars instrumentId symbol asOf dataAsOf s ↔
      builder.Emits bars' instrumentId symbol asOf dataAsOf s

section Horizon

variable {builder : DatasetBuilder} {n : Nat} {bound : Instant} {bars bars' : MarketBars}
  {instrumentId : Nat} {symbol : String} {asOf dataAsOf : Instant}

/-- The window a label is read from. -/
theorem exists_labelWindow {order : BarOrder} {labelBars : List MarketBarRow}
    (h : builder.labelBars order bars instrumentId asOf dataAsOf = .ok labelBars) :
    ∃ stop, (∀ (order' : BarOrder) (table : MarketBars),
      builder.labelBars order' table instrumentId asOf dataAsOf =
        .ok (getBarsAsOf order' table instrumentId builder.timeframe asOf stop dataAsOf)) ∧
      labelBars = getBarsAsOf order bars instrumentId builder.timeframe asOf stop dataAsOf := by
  obtain ⟨stop, hstop, hwindow⟩ := bind_eq_ok_iff.mp h
  refine ⟨stop, fun order' table => ?_, (Except.ok.inj hwindow).symm⟩
  exact bind_eq_ok_iff.mpr ⟨stop, hstop, rfl⟩

/-- A pass whose horizon is before the instant may go the same way on the other
table, with the same bars up to its horizon. -/
theorem exists_pass_of_agreeBefore (hhorizon : builder.labelDefinition.horizonDays = n)
    (hagree : AgreeBefore bound bars bars') {reads : DatasetReads} {s : DatasetSample F}
    (h : builder.buildSample reads bars instrumentId symbol asOf dataAsOf = .ok (.sample s))
    {labelBars : List MarketBarRow} {horizon : MarketBarRow}
    (hlabelBars : builder.labelBars reads.labels bars instrumentId asOf dataAsOf = .ok labelBars)
    (hlast : labelBars[n]? = some horizon) (hbefore : horizon.eventTime < bound) :
    ∃ (reads' : DatasetReads) (featureBars labelBars' : List MarketBarRow),
      builder.featureBars reads'.features bars' instrumentId asOf = .ok featureBars ∧
      builder.labelBars reads'.labels bars' instrumentId asOf dataAsOf = .ok labelBars' ∧
      (∀ i ≤ n, labelBars'[i]? = labelBars[i]?) ∧
      builder.buildSample reads' bars' instrumentId symbol asOf dataAsOf = .ok (.sample s) := by
  obtain ⟨featureBars, featureResult, labelBars', labelResult, hfeatureBars, hfeatures, hvector,
    hlabelBars', hlabelResult, hlabel, hreturn, hsample⟩ := buildSample_eq_sample_iff.mp h
  obtain rfl : labelBars = labelBars' := Except.ok.inj (hlabelBars.symm.trans hlabelBars')
  obtain ⟨entry, _, hentry, _, _⟩ :=
    computeForwardReturnLabel_labelled hhorizon hlabelResult hlabel hreturn
  obtain ⟨stop, hwindow, rfl⟩ := exists_labelWindow hlabelBars
  -- The window of the features ends before the horizon.
  have hasOf : asOf < bound := by
    have hentryTime := (mem_getBarsAsOf_iff_isVisibleBar.mp (List.mem_of_getElem? hentry)).2.1
    have hafter := (getBarsAsOf_ascending ..).le_of_getElem? (Nat.zero_le n) hentry hlast
    exact lt_of_le_of_lt (hentryTime.trans hafter) hbefore
  obtain ⟨start, hstart, hfeatureWindow⟩ := bind_eq_ok_iff.mp hfeatureBars
  obtain ⟨features', hfeatures'⟩ : ∃ order' : BarOrder,
      getBarsAsOf order' bars' instrumentId builder.timeframe start asOf asOf =
        getBarsAsOf reads.features bars instrumentId builder.timeframe start asOf asOf :=
    hagree.exists_getBarsAsOf_eq hasOf reads.features
  have hfeatureBars' : builder.featureBars features' bars' instrumentId asOf = .ok featureBars := by
    refine bind_eq_ok_iff.mpr ⟨start, hstart, ?_⟩
    rw [← hfeatureWindow]
    exact congrArg Except.ok hfeatures'
  obtain ⟨labels', hget⟩ := hagree.exists_getElem?_eq hlast hbefore
  refine ⟨{ features := features', labels := labels' }, featureBars, _, hfeatureBars',
    hwindow labels' bars', hget, buildSample_eq_sample_iff.mpr ?_⟩
  refine ⟨featureBars, featureResult, _, labelResult, hfeatureBars', hfeatures, hvector,
    hwindow labels' bars', ?_, hlabel, hreturn, hsample⟩
  rw [← hlabelResult, computeForwardReturnLabel_eq hhorizon hentry hlast]
  exact computeForwardReturnLabel_eq hhorizon ((hget 0 (Nat.zero_le n)).trans hentry)
    ((hget n le_rfl).trans hlast)

/-- A sample whose horizon is before the instant may be given by the other table. -/
theorem emits_of_agreeBefore (hhorizon : builder.labelDefinition.horizonDays = n)
    (hagree : AgreeBefore bound bars bars') {reads : DatasetReads} {s : DatasetSample F}
    (h : builder.buildSample reads bars instrumentId symbol asOf dataAsOf = .ok (.sample s))
    {labelBars : List MarketBarRow} {horizon : MarketBarRow}
    (hlabelBars : builder.labelBars reads.labels bars instrumentId asOf dataAsOf = .ok labelBars)
    (hlast : labelBars[n]? = some horizon) (hbefore : horizon.eventTime < bound) :
    builder.Emits bars' instrumentId symbol asOf dataAsOf s := by
  obtain ⟨reads', _, _, _, _, _, hemitted⟩ :=
    exists_pass_of_agreeBefore hhorizon hagree h hlabelBars hlast hbefore
  exact ⟨reads', hemitted⟩

/-- A sample whose horizon is before the instant is settled before it. -/
theorem settledBefore_of_horizon (hhorizon : builder.labelDefinition.horizonDays = n)
    {order : BarOrder} {labelBars : List MarketBarRow} {horizon : MarketBarRow}
    (hlabelBars : builder.labelBars order bars instrumentId asOf dataAsOf = .ok labelBars)
    (hlast : labelBars[n]? = some horizon) (hbefore : horizon.eventTime < bound) :
    builder.SettledBefore F bound bars instrumentId symbol asOf dataAsOf := by
  obtain ⟨stop, hwindow, rfl⟩ := exists_labelWindow hlabelBars
  have hlong := (getBarsAsOf_ascending ..).lt_length_filter_lt hlast hbefore
  -- In every table that agrees, and in every order of ties, the horizon is before the instant.
  have hbefore' : ∀ (table : MarketBars), AgreeBefore bound bars table → ∀ (o : BarOrder)
      (row : MarketBarRow),
      (getBarsAsOf o table instrumentId builder.timeframe asOf stop dataAsOf)[n]? = some row →
      row.eventTime < bound := by
    intro table hagree o row hrow
    by_contra hnot
    have hshort := (getBarsAsOf_ascending ..).length_filter_lt_le hrow (not_lt.mp hnot)
    rw [hagree.length_filter_eq order o] at hlong
    exact absurd hlong (Nat.not_lt.mpr hshort)
  have htransfer : ∀ {table table' : MarketBars}, AgreeBefore bound bars table →
      AgreeBefore bound table table' → ∀ s : DatasetSample F,
      builder.Emits table instrumentId symbol asOf dataAsOf s →
      builder.Emits table' instrumentId symbol asOf dataAsOf s := by
    intro table table' hagree hagree' s h
    obtain ⟨reads, h⟩ := h
    obtain ⟨_, _, labelBars, labelResult, _, _, _, hlabelBars, hlabelResult, hlabel, hreturn, _⟩ :=
      buildSample_eq_sample_iff.mp h
    obtain ⟨_, row, _, hrow, _⟩ :=
      computeForwardReturnLabel_labelled hhorizon hlabelResult hlabel hreturn
    have hrow' := hrow
    obtain rfl := Except.ok.inj ((hwindow reads.labels table).symm.trans hlabelBars)
    exact emits_of_agreeBefore hhorizon hagree' h hlabelBars hrow
      (hbefore' table hagree reads.labels row hrow')
  intro bars' hagree s
  exact ⟨htransfer (fun _ _ => Iff.rfl) hagree s, htransfer hagree hagree.symm s⟩

/-- Without the periods from its horizon on, a date gives no sample. -/
theorem not_emits_barsBefore (hhorizon : builder.labelDefinition.horizonDays = n)
    {order : BarOrder} {labelBars : List MarketBarRow} {horizon : MarketBarRow}
    (hlabelBars : builder.labelBars order bars instrumentId asOf dataAsOf = .ok labelBars)
    (hlast : labelBars[n]? = some horizon) (hnotBefore : bound ≤ horizon.eventTime)
    (s : DatasetSample F) :
    ¬ builder.Emits (barsBefore bound bars) instrumentId symbol asOf dataAsOf s := by
  intro h
  obtain ⟨reads, h⟩ := h
  obtain ⟨_, _, labelBars', labelResult, _, _, _, hlabelBars', hlabelResult, hlabel, hreturn, _⟩ :=
    buildSample_eq_sample_iff.mp h
  obtain ⟨_, row, _, hrow, _⟩ :=
    computeForwardReturnLabel_labelled hhorizon hlabelResult hlabel hreturn
  obtain ⟨stop, hwindow, rfl⟩ := exists_labelWindow hlabelBars
  obtain rfl := Except.ok.inj ((hwindow reads.labels _).symm.trans hlabelBars')
  have hrowTime : row.eventTime < bound := by
    obtain ⟨r, hr, hkey, _⟩ := exists_row_of_mem_getBarsAsOf (List.mem_of_getElem? hrow)
    have hrtime : r.key.eventTime = row.eventTime := congrArg BarKey.eventTime hkey
    rw [← hrtime]
    exact (mem_barsBefore_iff.mp hr).2
  have hlong := (getBarsAsOf_ascending ..).lt_length_filter_lt hrow hrowTime
  have hshort := (getBarsAsOf_ascending ..).length_filter_lt_le hlast hnotBefore
  rw [(agreeBefore_barsBefore bound bars).length_filter_eq order reads.labels] at hshort
  exact absurd hlong (Nat.not_lt.mpr hshort)

end Horizon

end DatasetBuilder

section Training

variable {F : Type} [FloatArithmetic F]

/-- For every sample that is trained on, with its horizon the bar `n` positions
on in the window its label was read from: the bars before `split_as_of` settle
the sample if its horizon is before `split_as_of`, and of the samples that are
themselves before it they settle no others. -/
theorem training_sample_settled_iff (builder : DatasetBuilder) (n : Nat)
    (hhorizon : builder.labelDefinition.horizonDays = n) (reads : Nat → DatasetReads)
    (bars : MarketBars) (instrumentId : Nat) (symbol : String) (asOfDates : List Instant)
    (dataAsOf : Instant) (result : DatasetBuildResult F)
    (hbuild : builder.build reads bars instrumentId symbol asOfDates dataAsOf = .ok result)
    (validationFraction : F) (split : TrainValidationSplit F)
    (hsplit : timeOrderedSplit result.samples validationFraction = .ok split)
    (s : DatasetSample F) (htrain : s ∈ split.trainSamples) :
    ∃ (turn : Nat) (labelBars : List MarketBarRow) (horizon : MarketBarRow),
      asOfDates[turn]? = some s.asOf ∧
      builder.buildSample (reads turn) bars instrumentId symbol s.asOf dataAsOf =
        .ok (.sample s) ∧
      builder.labelBars (reads turn).labels bars instrumentId s.asOf dataAsOf = .ok labelBars ∧
      labelBars[n]? = some horizon ∧
      (horizon.eventTime < split.splitAsOf →
        builder.SettledBefore F split.splitAsOf bars instrumentId symbol s.asOf dataAsOf) ∧
      (s.asOf < split.splitAsOf →
        builder.SettledBefore F split.splitAsOf bars instrumentId symbol s.asOf dataAsOf →
        horizon.eventTime < split.splitAsOf) := by
  have hmem : s ∈ result.samples := mem_of_mem_trainSamples hsplit htrain
  obtain ⟨turn, asOf, hturn, hemitted⟩ := (DatasetBuilder.mem_samples_iff hbuild s).mp hmem
  obtain ⟨_, _, labelBars, labelResult, _, _, _, hlabelBars, hlabelResult, hlabel, hreturn, _, _,
    rfl⟩ := DatasetBuilder.buildSample_eq_sample_iff.mp hemitted
  obtain ⟨_, horizon, _, hlast, _⟩ :=
    computeForwardReturnLabel_labelled hhorizon hlabelResult hlabel hreturn
  refine ⟨turn, labelBars, horizon, hturn, hemitted, hlabelBars, hlast, ?_, ?_⟩
  · exact fun hbefore => DatasetBuilder.settledBefore_of_horizon hhorizon hlabelBars hlast hbefore
  · intro _ hsettled
    by_contra hnot
    have hgone := (hsettled _ (agreeBefore_barsBefore split.splitAsOf bars) s).mp
      ⟨reads turn, hemitted⟩
    exact DatasetBuilder.not_emits_barsBefore hhorizon hlabelBars hlast (not_lt.mp hnot) s hgone

end Training

/-- Of two samples a split in half trains on the earlier one. -/
theorem exists_halves (reads : Nat → DatasetReads) (asOfDates : List Instant)
    (dataAsOf trained validated : Instant)
    (h : (do
        let result ← nextDayBuilder.build (F := ℚ) reads risingBars 1 "005930" asOfDates dataAsOf
        let split ← timeOrderedSplit result.samples (1 / 2)
        return (split.trainSamples.map DatasetSample.asOf, split.splitAsOf)) =
      .ok ([trained], validated)) :
    ∃ (result : DatasetBuildResult ℚ) (split : TrainValidationSplit ℚ) (s : DatasetSample ℚ),
      nextDayBuilder.build reads risingBars 1 "005930" asOfDates dataAsOf = .ok result ∧
      timeOrderedSplit result.samples (1 / 2) = .ok split ∧ split.trainSamples = [s] ∧
      s.asOf = trained ∧ split.splitAsOf = validated := by
  obtain ⟨result, hbuild, h⟩ := bind_eq_ok_iff.mp h
  obtain ⟨split, hsplit, h⟩ := bind_eq_ok_iff.mp h
  obtain ⟨htrained, hvalidated⟩ := Prod.mk.inj (Except.ok.inj h)
  obtain ⟨s, hs, hasOf⟩ := List.map_eq_singleton_iff.mp htrained
  exact ⟨result, split, s, hbuild, hsplit, hs, hasOf, hvalidated⟩

/-- Trained on day 20 and validated on day 22, a next-day label is settled. -/
theorem day_22_validation_settles_day_20 :
    nextDayBuilder.SettledBefore ℚ (hours 528) risingBars 1 "005930" (hours 480) (hours 600) := by
  obtain ⟨result, split, s, hbuild, hsplit, hs, hasOf, hsplitAsOf⟩ :=
    exists_halves (fun _ => DatasetReads.stable) [hours 480, hours 528] (hours 600) (hours 480)
      (hours 528) (by decide +kernel)
  obtain ⟨turn, labelBars, horizon, _, _, hlabelBars, hlast, hsettled, _⟩ :=
    training_sample_settled_iff nextDayBuilder 1 rfl (fun _ => DatasetReads.stable) risingBars 1
      "005930" [hours 480, hours 528] (hours 600) result hbuild (1 / 2) split hsplit s
      (hs ▸ List.mem_singleton_self s)
  rw [hasOf] at hlabelBars hsettled
  cases hlabelBars
  have htime : (getBarsAsOf (OrderBy.byColumn _) risingBars 1 "1d" (hours 480) (hours 600)
      (hours 600))[1]?.map MarketBarRow.eventTime = some (hours 504) := by
    decide +kernel
  have hhorizon : horizon.eventTime = hours 504 :=
    Option.some.inj ((congrArg (Option.map MarketBarRow.eventTime) hlast).symm.trans htime)
  rw [hsplitAsOf, hhorizon] at hsettled
  exact hsettled (by decide)

/-- Validated on day 21, it is not: the label of day 20 is the return to day 21. -/
theorem day_21_validation_leaks_into_day_20 :
    ¬ ∀ (builder : DatasetBuilder) (n : Nat), 1 ≤ n → builder.labelDefinition.horizonDays = n →
      ∀ (reads : Nat → DatasetReads) (bars : MarketBars) (instrumentId : Nat) (symbol : String)
        (asOfDates : List Instant) (dataAsOf : Instant) (result : DatasetBuildResult ℚ),
      builder.build reads bars instrumentId symbol asOfDates dataAsOf = .ok result →
      ∀ (validationFraction : ℚ) (split : TrainValidationSplit ℚ),
      timeOrderedSplit result.samples validationFraction = .ok split →
      ∀ s ∈ split.trainSamples,
      builder.SettledBefore ℚ split.splitAsOf bars instrumentId symbol s.asOf dataAsOf := by
  intro h
  obtain ⟨result, split, s, hbuild, hsplit, hs, hasOf, hsplitAsOf⟩ :=
    exists_halves (fun _ => DatasetReads.stable) [hours 480, hours 504] (hours 600) (hours 480)
      (hours 504) (by decide +kernel)
  have hmem : s ∈ split.trainSamples := hs ▸ List.mem_singleton_self s
  have hsettled := h nextDayBuilder 1 le_rfl rfl (fun _ => DatasetReads.stable) risingBars 1
    "005930" [hours 480, hours 504] (hours 600) result hbuild (1 / 2) split hsplit s hmem
  obtain ⟨turn, asOf, _, hemitted⟩ :=
    (DatasetBuilder.mem_samples_iff hbuild s).mp (mem_of_mem_trainSamples hsplit hmem)
  obtain ⟨_, _, _, _, _, _, _, _, _, _, _, _, _, hpass⟩ :=
    DatasetBuilder.buildSample_eq_sample_iff.mp hemitted
  obtain rfl : asOf = hours 480 := hpass.symm.trans hasOf
  rw [hasOf, hsplitAsOf] at hsettled
  have hgone := (hsettled _ (agreeBefore_barsBefore (hours 504) risingBars) s).mp
    ⟨DatasetReads.stable, hemitted⟩
  have hlabelBars :
      nextDayBuilder.labelBars (OrderBy.byColumn _) risingBars 1 (hours 480) (hours 600) =
        .ok (getBarsAsOf (OrderBy.byColumn _) risingBars 1 "1d" (hours 480) (hours 600)
          (hours 600)) := rfl
  exact DatasetBuilder.not_emits_barsBefore (n := 1) rfl hlabelBars
    (List.getElem?_eq_getElem (by decide +kernel)) (by decide +kernel) _ hgone

end Models
end QuantPlatform
