import QuantPlatform.AiContext.Schema
import QuantPlatform.Models.Features
import QuantPlatform.Regime.Classifier

namespace QuantPlatform
namespace Signals

open Db Models Regime AiContext

structure QuantProbability (F : Type) where
  modelName : String
  modelVersion : String
  featureSchemaVersion : String
  labelDefinitionVersion : String
  probability : F
  asOf : Instant
  deriving DecidableEq, Repr

structure SignalInput (F : Type) where
  instrumentId : Nat
  symbol : String
  asOf : Instant
  generatedAt : Instant
  aiContext : List AIContextResult
  quantProbability : Option (QuantProbability F)
  regime : Option RegimeAssessment

/-- `predict_proba` of a fitted model: a probability for each row of the matrix. -/
abbrev QuantModel (F : Type) := List (List F) → Except Exn (List F)

structure SignalEngine (F : Type) where
  regimeProvider : RegimeProvider
  quantModel : Option (QuantModel F)
  quantModelName : String
  quantModelVersion : String
  quantFeatureSchemaVersion : String
  quantLabelDefinitionVersion : String
  featureTimeframe : String
  featureLookbackDays : Int

/-- How the two bar reads of one signal arrange rows that tie. -/
structure SignalReads where
  regime : BarOrder
  features : BarOrder

namespace SignalEngine

variable {F : Type} [FloatArithmetic F] (engine : SignalEngine F)

def featureBars (order : BarOrder) (bars : MarketBars) (instrumentId : Nat) (asOf : Instant) :
    Except Exn (List MarketBarRow) := do
  let start ← Instant.minusDays asOf engine.featureLookbackDays
  return getBarsAsOf order bars instrumentId engine.featureTimeframe start asOf asOf

/-- What the model makes of a feature vector. -/
def predict (model : QuantModel F) (asOf : Instant) (vector : FeatureVector F) :
    Except Exn (QuantProbability F) := do
  let row ← vector.asOrderedList
  let probabilities ← model [row]
  let probability ← item probabilities 0
  return {
    modelName := engine.quantModelName
    modelVersion := engine.quantModelVersion
    featureSchemaVersion := engine.quantFeatureSchemaVersion
    labelDefinitionVersion := engine.quantLabelDefinitionVersion
    probability, asOf }

def computeQuantProbability (order : BarOrder) (bars : MarketBars) (instrumentId : Nat)
    (asOf : Instant) : Except Exn (Option (QuantProbability F)) := do
  match engine.quantModel with
  | none => return none
  | some model =>
      let bars ← engine.featureBars order bars instrumentId asOf
      let featureResult ← computeFeatures bars
      match featureResult.vector with
      | none => return none
      | some vector => return some (← engine.predict model asOf vector)

/-- A model is asked for the features of the engine's window. -/
theorem computeQuantProbability_of_computed {engine : SignalEngine F} {order : BarOrder}
    {bars : MarketBars} {instrumentId : Nat} {asOf : Instant} {model : QuantModel F}
    {served : List MarketBarRow} {result : FeatureComputationResult F} {vector : FeatureVector F}
    (hmodel : engine.quantModel = some model)
    (hserved : engine.featureBars order bars instrumentId asOf = .ok served)
    (hcomputed : computeFeatures served = .ok result) (hvector : result.vector = some vector) :
    engine.computeQuantProbability order bars instrumentId asOf =
      some <$> engine.predict model asOf vector := by
  unfold computeQuantProbability
  simp only [hmodel, hserved, hcomputed, hvector, bind, Except.bind]
  rfl

def buildSignalInput (reads : SignalReads) (bars : MarketBars) (instrumentId : Nat)
    (symbol : String) (asOf generatedAt : Instant) (aiContext : List AIContextResult)
    (advancingCount decliningCount : Option Int) : Except Exn (SignalInput F) := do
  let regime ← engine.regimeProvider.getRegimeAsOf F reads.regime bars asOf advancingCount
    decliningCount
  let quantProbability ← engine.computeQuantProbability reads.features bars instrumentId asOf
  return {
    instrumentId, symbol, asOf, generatedAt, aiContext, quantProbability
    regime := some regime }

end SignalEngine

end Signals
end QuantPlatform
