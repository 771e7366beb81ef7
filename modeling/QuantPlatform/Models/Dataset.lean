/-
The training set: one sample, or one reason to skip it, for each `as_of`.

The features are read up to `as_of` at `as_of`, the label from `as_of` on at
`data_as_of`.  SQL leaves rows that tie on `event_time` in any order, so each
pass of the loop has its own arrangement of the two reads.
-/
import QuantPlatform.Models.Features
import QuantPlatform.Models.Labels

namespace QuantPlatform
namespace Models

open Db Relational Raise

structure DatasetSample (F : Type) where
  instrumentId : Nat
  symbol : String
  asOf : Instant
  features : FeatureVector F
  label : Int
  forwardReturn : Decimal
  deriving DecidableEq, Repr

structure SkippedSample where
  instrumentId : Nat
  asOf : Instant
  reason : String
  deriving DecidableEq, Repr

structure DatasetBuildResult (F : Type) where
  samples : List (DatasetSample F)
  skipped : List SkippedSample
  deriving DecidableEq, Repr

/-- What one pass of the loop appends to. -/
inductive SampleOutcome (F : Type)
  | sample (sample : DatasetSample F)
  | skipped (skipped : SkippedSample)
  deriving DecidableEq, Repr

namespace SampleOutcome

variable {F : Type}

def sample? : SampleOutcome F → Option (DatasetSample F)
  | sample s => some s
  | skipped _ => none

def skipped? : SampleOutcome F → Option SkippedSample
  | sample _ => none
  | skipped s => some s

/-- A pass that something can be read of the sample of has one. -/
theorem exists_sample {β : Type} {value : DatasetSample F → β} {x : Except Exn (SampleOutcome F)}
    {b : β} (h : (do let outcome ← x; return outcome.sample?.map value) = .ok (some b)) :
    ∃ s, x = .ok (.sample s) ∧ value s = b := by
  obtain ⟨outcome, hx, h⟩ := bind_eq_ok_iff.mp h
  cases outcome with
  | sample s => exact ⟨s, hx, Option.some.inj (Except.ok.inj h)⟩
  | skipped s => cases Except.ok.inj h

end SampleOutcome

/-- How the two reads of one pass arrange rows that tie. -/
structure DatasetReads where
  features : BarOrder
  labels : BarOrder

/-- Reads that leave ties as they were written. -/
def DatasetReads.stable : DatasetReads where
  features := OrderBy.byColumn _
  labels := OrderBy.byColumn _

structure DatasetBuilder where
  timeframe : String
  featureLookbackDays : Int
  labelDefinition : LabelDefinition
  labelLookbackDays : Int

/-- `f"{reason}"` of a reason that may be `None`. -/
def formatReason (reason : Option String) : String := reason.getD "None"

namespace DatasetBuilder

variable {F : Type} [FloatArithmetic F] (builder : DatasetBuilder)

def featureBars (order : BarOrder) (bars : MarketBars) (instrumentId : Nat) (asOf : Instant) :
    Except Exn (List MarketBarRow) := do
  let start ← Instant.minusDays asOf builder.featureLookbackDays
  return getBarsAsOf order bars instrumentId builder.timeframe start asOf asOf

def labelBars (order : BarOrder) (bars : MarketBars) (instrumentId : Nat)
    (asOf dataAsOf : Instant) : Except Exn (List MarketBarRow) := do
  let stop ← Instant.plusDays asOf builder.labelLookbackDays
  return getBarsAsOf order bars instrumentId builder.timeframe asOf stop dataAsOf

/-- The second half of a pass, once there is a feature vector. -/
def labelSample (order : BarOrder) (bars : MarketBars) (instrumentId : Nat) (symbol : String)
    (asOf dataAsOf : Instant) (vector : FeatureVector F) : Except Exn (SampleOutcome F) := do
  let labelBars ← builder.labelBars order bars instrumentId asOf dataAsOf
  let labelResult ← computeForwardReturnLabel labelBars builder.labelDefinition
  match labelResult.label, labelResult.forwardReturn with
  | some label, some forwardReturn =>
      return .sample { instrumentId, symbol, asOf, features := vector, label, forwardReturn }
  | _, _ =>
      let reason := formatReason labelResult.reason
      return .skipped { instrumentId, asOf, reason := s!"label: {reason}" }

/-- One pass of the loop. -/
def buildSample (reads : DatasetReads) (bars : MarketBars) (instrumentId : Nat) (symbol : String)
    (asOf dataAsOf : Instant) : Except Exn (SampleOutcome F) := do
  let featureBars ← builder.featureBars reads.features bars instrumentId asOf
  let featureResult ← computeFeatures featureBars
  match featureResult.vector with
  | none =>
      let reason := formatReason featureResult.reason
      return .skipped { instrumentId, asOf, reason := s!"features: {reason}" }
  | some vector => builder.labelSample reads.labels bars instrumentId symbol asOf dataAsOf vector

/-- The passes over the dates, each with the reads of its turn. -/
def outcomes (reads : Nat → DatasetReads) (bars : MarketBars) (instrumentId : Nat)
    (symbol : String) (asOfDates : List Instant) (dataAsOf : Instant) :
    Except Exn (List (SampleOutcome F)) :=
  asOfDates.zipIdx.mapM fun (asOf, turn) =>
    builder.buildSample (reads turn) bars instrumentId symbol asOf dataAsOf

def build (reads : Nat → DatasetReads) (bars : MarketBars) (instrumentId : Nat) (symbol : String)
    (asOfDates : List Instant) (dataAsOf : Instant) : Except Exn (DatasetBuildResult F) := do
  let outcomes ← builder.outcomes reads bars instrumentId symbol asOfDates dataAsOf
  return {
    samples := outcomes.filterMap SampleOutcome.sample?
    skipped := outcomes.filterMap SampleOutcome.skipped? }

section Spec

variable {builder} {bars : MarketBars} {instrumentId : Nat} {symbol : String}
  {dataAsOf : Instant}

/-- The samples of a build are those its passes emit. -/
theorem mem_samples_iff {reads : Nat → DatasetReads} {asOfDates : List Instant}
    {result : DatasetBuildResult F}
    (h : builder.build reads bars instrumentId symbol asOfDates dataAsOf = .ok result)
    (s : DatasetSample F) :
    s ∈ result.samples ↔ ∃ (turn : Nat) (asOf : Instant), asOfDates[turn]? = some asOf ∧
      builder.buildSample (reads turn) bars instrumentId symbol asOf dataAsOf =
        .ok (.sample s) := by
  obtain ⟨outcomes, houtcomes, hresult⟩ := bind_eq_ok_iff.mp h
  cases hresult
  have hsample : ∀ o : SampleOutcome F, o.sample? = some s ↔ o = .sample s := by
    intro o
    cases o with
    | sample s' =>
      show some s' = some s ↔ _
      simp
    | skipped s' =>
      show none = some s ↔ _
      simp
  show s ∈ outcomes.filterMap SampleOutcome.sample? ↔ _
  simp only [List.mem_filterMap, hsample, exists_eq_right]
  have hmem := exists_mem_iff_of_mapM houtcomes fun o => o = .sample s
  simp only [exists_eq_right] at hmem
  rw [hmem]
  simp only [Prod.exists, List.mem_zipIdx_iff_getElem?]
  constructor
  · intro hpass
    obtain ⟨asOf, turn, hdate, hbuild⟩ := hpass
    exact ⟨turn, asOf, hdate, hbuild⟩
  · intro hpass
    obtain ⟨turn, asOf, hdate, hbuild⟩ := hpass
    exact ⟨asOf, turn, hdate, hbuild⟩

theorem build_singleton {reads : Nat → DatasetReads} {asOf : Instant} {s : DatasetSample F}
    (h : builder.buildSample (reads 0) bars instrumentId symbol asOf dataAsOf = .ok (.sample s)) :
    builder.build reads bars instrumentId symbol [asOf] dataAsOf =
      .ok { samples := [s], skipped := [] } :=
  bind_eq_ok_iff.mpr ⟨[.sample s], mapM_eq_ok_iff.mpr (.cons h .nil), rfl⟩

/-- What a pass that emits a sample has computed. -/
theorem buildSample_eq_sample_iff {reads : DatasetReads} {asOf : Instant} {s : DatasetSample F} :
    builder.buildSample reads bars instrumentId symbol asOf dataAsOf = .ok (.sample s) ↔
      ∃ featureBars featureResult labelBars labelResult,
        builder.featureBars reads.features bars instrumentId asOf = .ok featureBars ∧
        computeFeatures featureBars = .ok featureResult ∧
        featureResult.vector = some s.features ∧
        builder.labelBars reads.labels bars instrumentId asOf dataAsOf = .ok labelBars ∧
        computeForwardReturnLabel labelBars builder.labelDefinition = .ok labelResult ∧
        labelResult.label = some s.label ∧ labelResult.forwardReturn = some s.forwardReturn ∧
        s.instrumentId = instrumentId ∧ s.symbol = symbol ∧ s.asOf = asOf := by
  constructor
  · intro h
    obtain ⟨featureBars, hfeatureBars, h⟩ := bind_eq_ok_iff.mp h
    obtain ⟨featureResult, hfeatures, h⟩ := bind_eq_ok_iff.mp h
    cases hvector : featureResult.vector with
    | none =>
      rw [hvector] at h
      cases h
    | some vector =>
      rw [hvector] at h
      obtain ⟨labelBars, hlabelBars, h⟩ := bind_eq_ok_iff.mp h
      obtain ⟨labelResult, hlabelResult, h⟩ := bind_eq_ok_iff.mp h
      cases hlabel : labelResult.label with
      | none =>
        rw [hlabel] at h
        cases h
      | some label =>
        cases hreturn : labelResult.forwardReturn with
        | none =>
          rw [hlabel, hreturn] at h
          cases h
        | some forwardReturn =>
          rw [hlabel, hreturn] at h
          cases h
          exact ⟨featureBars, featureResult, labelBars, labelResult, hfeatureBars, hfeatures,
            hvector, hlabelBars, hlabelResult, hlabel, hreturn, rfl, rfl, rfl⟩
  · intro h
    obtain ⟨featureBars, featureResult, labelBars, labelResult, hfeatureBars, hfeatures, hvector,
      hlabelBars, hlabelResult, hlabel, hreturn, rfl, rfl, rfl⟩ := h
    refine bind_eq_ok_iff.mpr ⟨featureBars, hfeatureBars, ?_⟩
    refine bind_eq_ok_iff.mpr ⟨featureResult, hfeatures, ?_⟩
    simp only [hvector]
    refine bind_eq_ok_iff.mpr ⟨labelBars, hlabelBars, ?_⟩
    refine bind_eq_ok_iff.mpr ⟨labelResult, hlabelResult, ?_⟩
    simp only [hlabel, hreturn]
    rfl

end Spec

end DatasetBuilder

end Models
end QuantPlatform
