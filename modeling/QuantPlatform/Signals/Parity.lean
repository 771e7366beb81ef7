/-
Training and serving see the same features.

The dataset builder and the signal engine read bars through two windows of their
own.  Where every period has one source, a read is settled once its instant has
passed, and a longer window only puts older bars in front; and features are
computed from the last 21 bars.
-/
import QuantPlatform.Db.Periods
import QuantPlatform.Models.Alignment
import QuantPlatform.Signals.Engine

namespace QuantPlatform
namespace Signals

open Db Relational Raise Models Regime

/-- Each bar of an instrument, timeframe and period comes from one source. -/
def OneSource (bars : MarketBars) : Prop :=
  ∀ r ∈ bars.rows, ∀ s ∈ bars.rows, r.key.instrumentId = s.key.instrumentId →
    r.key.timeframe = s.key.timeframe → r.key.eventTime = s.key.eventTime →
    r.key.source = s.key.source

theorem OneSource.perPeriod {bars : MarketBars} (h : OneSource bars) (instrumentId : Nat)
    (timeframe : String) (start stop asOf : Instant) :
    OneSourcePerPeriod bars instrumentId timeframe start stop asOf := by
  intro r hr s hs hrfilter hsfilter _ _ htime
  rw [barFilter_iff] at hrfilter hsfilter
  exact h r hr s hs (hrfilter.1.trans hsfilter.1.symm)
    (hrfilter.2.1.trans hsfilter.2.1.symm) htime

/-- Bars that become available after `as_of` extend a state without changing what
a reader at `as_of` sees. -/
theorem agreeUpTo_upsertBars {asOf : Instant} (bars : MarketBars) {rows : List BarInput}
    (hlater : ∀ row ∈ rows, asOf < row.availableAt) :
    AgreeUpTo asOf bars (upsertBars bars rows).1 :=
  AgreeUpTo.symm (agreeUpTo_appendRevisionRows hlater bars)

/-- A read of any window is settled once its instant has passed. -/
theorem OneSource.getBarsAsOf_eq {bars bars' : MarketBars} {asOf : Instant} (h : OneSource bars)
    (hextends : AgreeUpTo asOf bars bars') (order order' : BarOrder) (instrumentId : Nat)
    (timeframe : String) (start stop : Instant) :
    getBarsAsOf order' bars' instrumentId timeframe start stop asOf =
      getBarsAsOf order bars instrumentId timeframe start stop asOf :=
  getBarsAsOf_eq_of_agreeUpTo (h.perPeriod instrumentId timeframe start stop asOf) hextends

section Windows

variable {F : Type} [FloatArithmetic F] {bars bars' : MarketBars} {instrumentId : Nat}
  {timeframe : String} {asOf : Instant}

/-- Two windows that end together and hold at least 21 bars give the same features. -/
theorem computeFeatures_windows (hone : OneSource bars) {order order' : BarOrder}
    {start start' : Instant}
    (hlength : 21 ≤ (getBarsAsOf order bars instrumentId timeframe start asOf asOf).length)
    (hlength' : 21 ≤ (getBarsAsOf order' bars instrumentId timeframe start' asOf asOf).length) :
    computeFeatures (F := F) (getBarsAsOf order bars instrumentId timeframe start asOf asOf) =
      computeFeatures (getBarsAsOf order' bars instrumentId timeframe start' asOf asOf) := by
  rcases le_total start start' with hle | hle
  · obtain ⟨older, holder⟩ :=
      exists_getBarsAsOf_eq_append (hone.perPeriod instrumentId timeframe start asOf asOf) hle
    rw [holder]
    exact computeFeatures_append older hlength'
  · obtain ⟨older, holder⟩ :=
      exists_getBarsAsOf_eq_append (hone.perPeriod instrumentId timeframe start' asOf asOf) hle
    rw [holder]
    exact (computeFeatures_append older hlength).symm

end Windows

section Parity

variable {F : Type} [FloatArithmetic F] {bars bars' : MarketBars} {asOf : Instant}

/-- What the builder makes of the extended state and the engine of the original
one, each through its own window. -/
theorem features_agree (hone : OneSource bars) (hextends : AgreeUpTo asOf bars bars')
    {instrumentId : Nat} {builder : DatasetBuilder} {engine : SignalEngine F}
    (htimeframe : builder.timeframe = engine.featureTimeframe) {order : BarOrder}
    {trained served : List MarketBarRow}
    (htrained : builder.featureBars order bars instrumentId asOf = .ok trained)
    (htrainedLength : 21 ≤ trained.length)
    (hserved : engine.featureBars order bars instrumentId asOf = .ok served)
    (hservedLength : 21 ≤ served.length) (trainOrder serveOrder : BarOrder) :
    ∃ trained' served',
      builder.featureBars trainOrder bars' instrumentId asOf = .ok trained' ∧
      engine.featureBars serveOrder bars instrumentId asOf = .ok served' ∧
      computeFeatures (F := F) trained' = computeFeatures served' := by
  obtain ⟨start, hstart, htrained⟩ := bind_eq_ok_iff.mp htrained
  obtain ⟨start', hstart', hserved⟩ := bind_eq_ok_iff.mp hserved
  cases Except.ok.inj htrained
  cases Except.ok.inj hserved
  refine ⟨_, _, bind_eq_ok_iff.mpr ⟨start, hstart, rfl⟩, bind_eq_ok_iff.mpr ⟨start', hstart', rfl⟩,
    ?_⟩
  have hsame : AgreeUpTo asOf bars bars := fun _ _ => Iff.rfl
  rw [hone.getBarsAsOf_eq hextends order trainOrder, hone.getBarsAsOf_eq hsame order serveOrder]
  rw [htimeframe] at htrainedLength ⊢
  exact computeFeatures_windows hone htrainedLength hservedLength

/-- The regime of an `as_of` is settled once it has passed. -/
theorem getRegimeAsOf_eq (hone : OneSource bars) (hextends : AgreeUpTo asOf bars bars')
    (provider : RegimeProvider) (order order' : BarOrder)
    (advancingCount decliningCount : Option Int) :
    provider.getRegimeAsOf F order' bars' asOf advancingCount decliningCount =
      provider.getRegimeAsOf F order bars asOf advancingCount decliningCount := by
  unfold RegimeProvider.getRegimeAsOf
  cases Instant.minusDays asOf provider.lookbackDays with
  | error e => rfl
  | ok start =>
    have hread := hone.getBarsAsOf_eq hextends order order' provider.benchmarkInstrumentId
      provider.timeframe start asOf
    exact congrArg (fun bars => provider.classifier.classify F
      { bars, advancingCount, decliningCount } asOf) hread

/-- With one source for each bar, whatever becomes available after `as_of`: a
training sample built later has the features that were served at the time, any
model was asked for the probability of just those, and the regime is the same. -/
theorem replay_agrees_with_serving (hone : OneSource bars) (hextends : AgreeUpTo asOf bars bars')
    (instrumentId : Nat) (builder : DatasetBuilder) (engine : SignalEngine F)
    (htimeframe : builder.timeframe = engine.featureTimeframe) (order : BarOrder)
    (trained served : List MarketBarRow)
    (htrained : builder.featureBars order bars instrumentId asOf = .ok trained)
    (htrainedLength : 21 ≤ trained.length)
    (hserved : engine.featureBars order bars instrumentId asOf = .ok served)
    (hservedLength : 21 ≤ served.length) :
    (∀ trainOrder serveOrder : BarOrder,
      builder.featureBars trainOrder bars' instrumentId asOf >>= computeFeatures (F := F) =
        engine.featureBars serveOrder bars instrumentId asOf >>= computeFeatures) ∧
    (∀ (reads : Nat → DatasetReads) (symbol : String) (asOfDates : List Instant)
        (dataAsOf : Instant) (result : DatasetBuildResult F),
      builder.build reads bars' instrumentId symbol asOfDates dataAsOf = .ok result →
      ∀ s ∈ result.samples, s.asOf = asOf →
      ∀ (model : QuantModel F) (serveOrder : BarOrder), engine.quantModel = some model →
      engine.computeQuantProbability serveOrder bars instrumentId asOf =
        some <$> engine.predict model asOf s.features) ∧
    (∀ (provider : RegimeProvider) (order order' : BarOrder)
        (advancingCount decliningCount : Option Int),
      provider.getRegimeAsOf F order' bars' asOf advancingCount decliningCount =
        provider.getRegimeAsOf F order bars asOf advancingCount decliningCount) := by
  have hfeatures := features_agree hone hextends htimeframe htrained htrainedLength hserved
    hservedLength
  refine ⟨?_, ?_, getRegimeAsOf_eq hone hextends⟩
  · intro trainOrder serveOrder
    obtain ⟨trained', served', htrained', hserved', hequal⟩ := hfeatures trainOrder serveOrder
    rw [htrained', hserved']
    exact hequal
  · intro reads symbol asOfDates dataAsOf result hbuild s hs hasOf model serveOrder hmodel
    obtain ⟨turn, asOf', _, hemitted⟩ := (DatasetBuilder.mem_samples_iff hbuild s).mp hs
    obtain ⟨featureBars, featureResult, _, _, hfeatureBars, hcomputed, hvector, _, _, _, _, _, _,
      hasOf'⟩ := DatasetBuilder.buildSample_eq_sample_iff.mp hemitted
    obtain rfl : asOf' = asOf := hasOf'.symm.trans hasOf
    obtain ⟨trained', served', htrained', hserved', hequal⟩ :=
      hfeatures (reads turn).features serveOrder
    obtain rfl : featureBars = trained' := Except.ok.inj (hfeatureBars.symm.trans htrained')
    exact SignalEngine.computeQuantProbability_of_computed hmodel hserved'
      (hequal.symm.trans hcomputed) hvector

end Parity

/-- An engine with a window of its own and a model that answers with the first feature. -/
def steadyEngine : SignalEngine ℚ where
  regimeProvider :=
    { classifier :=
        { trendLookbackBars := 20
          trendUpThreshold := Decimal.ofInt 1, trendDownThreshold := Decimal.ofInt (-1)
          volatilityLookbackBars := 20
          highVolatilityThreshold := Decimal.ofInt 1, lowVolatilityThreshold := Decimal.ofInt 0
          breadthExpandingThreshold := Decimal.ofInt 1
          breadthContractingThreshold := Decimal.ofInt 0 }
      benchmarkInstrumentId := 1, timeframe := "1d", lookbackDays := 30 }
  quantModel := some fun rows => .ok (rows.map fun row => row.headD 0)
  quantModelName := "baseline"
  quantModelVersion := "1"
  quantFeatureSchemaVersion := featureSchemaVersion
  quantLabelDefinitionVersion := "v1"
  featureTimeframe := "1d"
  featureLookbackDays := 25

/-- The bar of day 20 is corrected to the prices of day 23 after day 20 was served. -/
def correctedBars : MarketBars :=
  (upsertBars risingBars
    [{ risingBar 20 with availableAt := hours 500, value := (risingBar 23).value }]).1

theorem correction_leaves_training_and_serving_alike :
    (nextDayBuilder.featureBars (OrderBy.byColumn _) correctedBars 1 (hours 480) >>=
        computeFeatures (F := ℚ)) =
      (steadyEngine.featureBars (OrderBy.byColumn _) risingBars 1 (hours 480) >>=
        computeFeatures) := by
  have hone : OneSource risingBars := by
    unfold OneSource
    decide +kernel
  have hextends : AgreeUpTo (hours 480) risingBars correctedBars := by
    unfold correctedBars
    apply agreeUpTo_upsertBars
    rw [List.forall_mem_singleton]
    decide
  have htrained : nextDayBuilder.featureBars (OrderBy.byColumn _) risingBars 1 (hours 480) =
      .ok (getBarsAsOf (OrderBy.byColumn _) risingBars 1 "1d" (hours (-480)) (hours 480)
        (hours 480)) := by
    decide +kernel
  have hserved : steadyEngine.featureBars (OrderBy.byColumn _) risingBars 1 (hours 480) =
      .ok (getBarsAsOf (OrderBy.byColumn _) risingBars 1 "1d" (hours (-120)) (hours 480)
        (hours 480)) := by
    decide +kernel
  exact (replay_agrees_with_serving hone hextends 1 nextDayBuilder steadyEngine rfl _ _ _ htrained
    (by decide +kernel) hserved (by decide +kernel)).1 _ _

end Signals
end QuantPlatform
