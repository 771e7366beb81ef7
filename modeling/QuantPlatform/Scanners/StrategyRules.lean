/-
The strategy stage: a rule set's conditions against a feature set.

Every condition is evaluated and recorded.  A feature that is missing fails its
condition.  An order comparison with a `NaN` raises; equality does not.
-/
import QuantPlatform.Python.Raise
import QuantPlatform.Scanners.Stages

namespace QuantPlatform
namespace Scanners

inductive Comparator
  | gt
  | gte
  | lt
  | lte
  | eq
  | neq
  deriving DecidableEq, Repr

namespace Comparator

def value : Comparator → String
  | gt => "gt"
  | gte => "gte"
  | lt => "lt"
  | lte => "lte"
  | eq => "eq"
  | neq => "neq"

/-- `_COMPARATOR_FUNCS`. -/
def func : Comparator → Decimal → Decimal → Except Exn Bool
  | gt => Decimal.gt
  | gte => Decimal.ge
  | lt => Decimal.lt
  | lte => Decimal.le
  | eq => fun observed threshold => .ok (observed.eq threshold)
  | neq => fun observed threshold => .ok (!observed.eq threshold)

end Comparator

structure StrategyCondition where
  name : String
  field : String
  comparator : Comparator
  threshold : Decimal
  description : String
  deriving DecidableEq, Repr

structure StrategyRuleSet where
  strategyId : String
  strategyVersion : String
  conditions : List StrategyCondition
  deriving DecidableEq, Repr

structure StrategyConditionResult where
  conditionName : String
  field : String
  passed : Bool
  observedValue : Option Decimal
  threshold : Decimal
  reason : Option String
  deriving DecidableEq, Repr

structure StrategyScanResult where
  strategyId : String
  strategyVersion : String
  instrumentSymbol : String
  asOf : Instant
  dataSource : String
  conditionResults : List StrategyConditionResult
  deriving DecidableEq, Repr

def StrategyScanResult.passed (result : StrategyScanResult) : Bool :=
  result.conditionResults.all StrategyConditionResult.passed

namespace StrategyScanner

def evaluateCondition (featureSet : FeatureSet) (condition : StrategyCondition) :
    Except Exn StrategyConditionResult :=
  match featureSet.get condition.field with
  | none =>
      .ok
        { conditionName := condition.name
          field := condition.field
          passed := false
          observedValue := none
          threshold := condition.threshold
          reason := some s!"feature {reprStr condition.field} not present in FeatureSet" }
  | some observed => do
      let passed ← condition.comparator.func observed condition.threshold
      let reason :=
        if passed then none
        else some (condition.field ++ "=" ++ observed.str ++ " fails " ++
          condition.comparator.value ++ " " ++ condition.threshold.str)
      return { conditionName := condition.name
               field := condition.field
               passed
               observedValue := some observed
               threshold := condition.threshold
               reason }

def evaluate (ruleSet : StrategyRuleSet) (featureSet : FeatureSet) :
    Except Exn StrategyScanResult := do
  let conditionResults ← ruleSet.conditions.mapM (evaluateCondition featureSet)
  return { strategyId := ruleSet.strategyId
           strategyVersion := ruleSet.strategyVersion
           instrumentSymbol := featureSet.instrumentSymbol
           asOf := featureSet.asOf
           dataSource := featureSet.dataSource
           conditionResults }

/-- A condition passes when its feature is there and compares as required. -/
def Passes (featureSet : FeatureSet) (condition : StrategyCondition) : Prop :=
  ∃ observed, featureSet.get condition.field = some observed ∧
    condition.comparator.func observed condition.threshold = .ok true

theorem passed_evaluateCondition_iff (featureSet : FeatureSet) (condition : StrategyCondition) :
    (∃ result, evaluateCondition featureSet condition = .ok result ∧ result.passed = true) ↔
      Passes featureSet condition := by
  unfold evaluateCondition Passes
  cases featureSet.get condition.field with
  | none => simp
  | some observed =>
    simp only [Raise.bind_eq_ok_iff, Option.some.injEq, exists_eq_left']
    constructor
    · intro h
      obtain ⟨result, ⟨passed, hpassed, hresult⟩, htrue⟩ := h
      rw [← Except.ok.inj hresult] at htrue
      exact hpassed.trans (congrArg Except.ok htrue)
    · intro h
      exact ⟨_, ⟨true, h, rfl⟩, rfl⟩

/-- A scan result passes when every condition of the rule set does. -/
theorem passed_evaluate_iff {ruleSet : StrategyRuleSet} {featureSet : FeatureSet}
    {result : StrategyScanResult} (h : evaluate ruleSet featureSet = .ok result) :
    result.passed = true ↔ ∀ condition ∈ ruleSet.conditions, Passes featureSet condition := by
  obtain ⟨results, hresults, heq⟩ := Raise.bind_eq_ok_iff.mp h
  rw [← Except.ok.inj heq]
  show results.all StrategyConditionResult.passed = true ↔ _
  rw [List.all_eq_true, Raise.forall_mem_iff_of_mapM hresults fun r => r.passed = true]
  simp only [passed_evaluateCondition_iff]

end StrategyScanner

end Scanners
end QuantPlatform
