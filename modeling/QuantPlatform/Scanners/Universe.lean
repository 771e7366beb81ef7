import QuantPlatform.Db.Columns
import QuantPlatform.Python.DecimalRange
import QuantPlatform.Python.Objects
import QuantPlatform.Scanners.Stages

namespace QuantPlatform
namespace Scanners

open Db

/-- A finite number that a `NUMERIC` column holds: 131072 digits before the decimal point and
16383 after it. -/
def IsNumeric (d : Decimal) : Prop := Decimal.Within (-16383) 131072 d

structure NumericBar (bar : MarketBarRow) : Prop where
  openPrice : IsNumeric bar.openPrice
  highPrice : IsNumeric bar.highPrice
  lowPrice : IsNumeric bar.lowPrice
  closePrice : IsNumeric bar.closePrice
  volume : IsNumeric bar.volume

/-- Bars of numbers, and no more of them than a table can hold. -/
structure NumericBars (bars : List MarketBarRow) : Prop where
  numeric : ∀ bar ∈ bars, NumericBar bar
  length : bars.length < 10 ^ 13

structure LiquidityFilter where
  minTurnoverValue : Decimal
  name : String := "liquidity"

/-- `sum(turnovers) / len(turnovers)`. -/
def averageTurnover (bars : List MarketBarRow) : Except Exn Decimal := do
  let turnovers ← bars.mapM fun bar => bar.closePrice.mul bar.volume
  let total ← Decimal.sum turnovers
  total.div (.ofInt turnovers.length)

def LiquidityFilter.evaluate (filter : LiquidityFilter) (data : UniverseFilterInput) :
    Except Exn UniverseFilterResult :=
  if data.recentBars.isEmpty then
    .ok
      { filterName := filter.name
        passed := false
        observedValue := .none
        threshold := .decimal filter.minTurnoverValue
        reason := some "no recent bars available" }
  else do
    let avgTurnover ← averageTurnover data.recentBars
    let passed ← avgTurnover.ge filter.minTurnoverValue
    let reason :=
      if passed then none
      else some ("average turnover " ++ avgTurnover.str ++ " < " ++ filter.minTurnoverValue.str)
    return { filterName := filter.name
             passed
             observedValue := .decimal avgTurnover
             threshold := .decimal filter.minTurnoverValue
             reason }

/-- A bound, or `None`. -/
def boundValue : Option Decimal → PyValue
  | none => .none
  | some bound => .decimal bound

structure PriceRangeFilter where
  minPrice : Option Decimal
  maxPrice : Option Decimal
  name : String := "price_range"

/-- `bound is not None and test(latest, bound)`. -/
def beyond (test : Decimal → Decimal → Except Exn Bool) (latest : Decimal) :
    Option Decimal → Except Exn Bool
  | none => .ok false
  | some bound => test latest bound

def PriceRangeFilter.evaluate (filter : PriceRangeFilter) (data : UniverseFilterInput) :
    Except Exn UniverseFilterResult :=
  let threshold : PyValue := .tuple [boundValue filter.minPrice, boundValue filter.maxPrice]
  match data.recentBars.getLast? with
  | none =>
    .ok
      { filterName := filter.name
        passed := false
        observedValue := .none
        threshold
        reason := some "no recent bars available" }
  | some bar => do
    let latest := bar.closePrice
    let below ← beyond Decimal.lt latest filter.minPrice
    let above ← beyond Decimal.gt latest filter.maxPrice
    let passed := !below && !above
    let reason :=
      if passed then none
      else some ("close_price " ++ latest.str ++ " outside [" ++
        (boundValue filter.minPrice).text ++ ", " ++ (boundValue filter.maxPrice).text ++ "]")
    return { filterName := filter.name
             passed
             observedValue := .decimal latest
             threshold
             reason }

/-- `_lookup_path`, of the parts of a path. -/
def lookupPath (current : PyValue) : List String → PyValue
  | [] => current
  | part :: rest =>
      match current with
      | .dict entries =>
          match entries.lookup part with
          | some value => lookupPath value rest
          | none => .none
      | _ => .none

inductive RawFlagStatus
  | pass
  | fail
  | unknown
  deriving DecidableEq

def RawFlagStatus.value : RawFlagStatus → String
  | pass => "pass"
  | fail => "fail"
  | unknown => "unknown"

structure RawFlagFilter where
  fieldPath : String
  failValues : FrozenSet
  treatUnknownAsPass : Bool := false
  name : String := "raw_flag"

namespace RawFlagFilter

/-- The result when there is nothing to look at. -/
def missing (filter : RawFlagFilter) (what : String) : UniverseFilterResult :=
  let status : RawFlagStatus := if filter.treatUnknownAsPass then .pass else .fail
  { filterName := filter.name
    passed := decide (status = .pass)
    observedValue := .none
    threshold := .list filter.failValues.sortedByStr
    reason := some (what ++ " (status=" ++ status.value ++ ")") }

/-- `field_path.split(".")`. -/
def path (filter : RawFlagFilter) : List String :=
  (filter.fieldPath.toList.splitOn '.').map String.ofList

/-- What stands at the path of the filter. -/
def flag (filter : RawFlagFilter) (instrument : InstrumentRow) : PyValue :=
  lookupPath (instrument.rawPayload.getD .none) filter.path

def evaluate (filter : RawFlagFilter) (data : UniverseFilterInput) :
    Except Exn UniverseFilterResult :=
  if (data.instrument.rawPayload.getD .none).isTruthy then
    match filter.flag data.instrument with
    | .none => .ok (filter.missing ("field " ++ reprStr filter.fieldPath ++ " not present"))
    | value => do
      let found ← filter.failValues.contains value
      let reason :=
        if found then some (filter.fieldPath ++ "=" ++ value.repr ++ " is in fail_values") else none
      return { filterName := filter.name
               passed := !found
               observedValue := value
               threshold := .list filter.failValues.sortedByStr
               reason }
  else .ok (filter.missing ("no raw_payload available for field " ++ reprStr filter.fieldPath))

end RawFlagFilter

inductive ShippedFilter
  | liquidity (filter : LiquidityFilter)
  | priceRange (filter : PriceRangeFilter)
  | rawFlag (filter : RawFlagFilter)

namespace ShippedFilter

def toUniverseFilter : ShippedFilter → UniverseFilter
  | liquidity filter => { name := filter.name, evaluate := filter.evaluate }
  | priceRange filter => { name := filter.name, evaluate := filter.evaluate }
  | rawFlag filter => { name := filter.name, evaluate := filter.evaluate }

/-- The filter has an answer: its thresholds can be compared, and what it looks for in the
fail values has a hash. -/
def Answers (data : UniverseFilterInput) : ShippedFilter → Prop
  | liquidity filter => data.recentBars = [] ∨ filter.minTurnoverValue ≠ .nan
  | priceRange filter =>
      data.recentBars = [] ∨ filter.minPrice ≠ some .nan ∧ filter.maxPrice ≠ some .nan
  | rawFlag filter => (filter.flag data.instrument).isHashable = true

end ShippedFilter

/-! ## When a filter answers -/

/-- The number of bars as a divisor. -/
theorem within_ofInt_length {n : Nat} (hlength : n < 10 ^ 13) :
    Decimal.Within 0 13 (.finite false n 0) := by
  refine ⟨le_refl _, ?_⟩
  rw [zpow_zero, mul_one]
  exact_mod_cast hlength.le

theorem ofInt_natCast (n : Nat) : Decimal.ofInt n = .finite false n 0 := by
  simp [Decimal.ofInt]

theorem exists_averageTurnover {bars : List MarketBarRow} (hbars : NumericBars bars)
    (hne : bars ≠ []) :
    ∃ average, averageTurnover bars = .ok average ∧ Decimal.Within (-32808) 262173 average := by
  have hmul : ∀ bar ∈ bars, ∃ turnover, bar.closePrice.mul bar.volume = .ok turnover ∧
      Decimal.Within (-32766) 262144 turnover := fun bar hbar =>
    Decimal.mul_within (hbars.numeric bar hbar).closePrice (hbars.numeric bar hbar).volume
      ⟨by norm_num, by decide, by decide⟩
  obtain ⟨turnovers, hturnovers⟩ := Raise.exists_mapM_eq_ok fun bar hbar =>
    (hmul bar hbar).imp fun _ h => h.1
  have hwithin : ∀ turnover ∈ turnovers, Decimal.Within (-32766) 262144 turnover :=
    (Raise.forall_mem_iff_of_mapM hturnovers _).mpr hmul
  have hlength : turnovers.length = bars.length :=
    (Raise.mapM_eq_ok_iff.mp hturnovers).length_eq.symm
  obtain ⟨total, htotal, hbounded⟩ := Decimal.sum_within ⟨by norm_num, by decide, by decide⟩
    (by norm_num) hwithin (by have := hbars.length; omega)
  have hdivisor := within_ofInt_length (hlength ▸ hbars.length)
  have hlength' : turnovers.length ≠ 0 := by
    rw [hlength]
    exact fun h => hne (List.length_eq_zero_iff.mp h)
  obtain ⟨average, haverage, hresult⟩ := Decimal.div_within hbounded hdivisor hlength'
    ⟨by norm_num, by decide, by decide⟩
  refine ⟨average, ?_, hresult⟩
  simp only [averageTurnover, hturnovers]
  show (Decimal.sum turnovers >>= _) = _
  rw [htotal]
  show total.div (.ofInt (turnovers.length : Int)) = _
  rw [ofInt_natCast, haverage]

theorem LiquidityFilter.evaluate_iff (filter : LiquidityFilter) {data : UniverseFilterInput}
    (hbars : NumericBars data.recentBars) :
    (∃ result, filter.evaluate data = .ok result) ↔
      data.recentBars = [] ∨ filter.minTurnoverValue ≠ .nan := by
  unfold evaluate
  by_cases hempty : data.recentBars = []
  · rw [if_pos (by rw [hempty]; rfl)]
    exact iff_of_true ⟨_, rfl⟩ (.inl hempty)
  · obtain ⟨average, haverage, hwithin⟩ := exists_averageTurnover hbars hempty
    rw [if_neg (by simpa using hempty), or_iff_right hempty, haverage]
    exact Raise.exists_bind_pure_iff.trans (Decimal.ordered_eq_ok_iff hwithin.isFinite)

theorem beyond_eq_ok_iff {test : Ordering → Bool} {latest : Decimal} (hlatest : IsNumeric latest)
    (bound : Option Decimal) :
    (∃ answer, beyond (Decimal.ordered test) latest bound = .ok answer) ↔ bound ≠ some .nan := by
  cases bound with
  | none => exact iff_of_true ⟨false, rfl⟩ nofun
  | some bound =>
    rw [ne_eq, Option.some.injEq]
    exact Decimal.ordered_eq_ok_iff hlatest.isFinite

theorem PriceRangeFilter.evaluate_iff (filter : PriceRangeFilter) {data : UniverseFilterInput}
    (hbars : NumericBars data.recentBars) :
    (∃ result, filter.evaluate data = .ok result) ↔
      data.recentBars = [] ∨ filter.minPrice ≠ some .nan ∧ filter.maxPrice ≠ some .nan := by
  unfold evaluate
  cases hlast : data.recentBars.getLast? with
  | none => exact iff_of_true ⟨_, rfl⟩ (.inl (List.getLast?_eq_none_iff.mp hlast))
  | some bar =>
    have hmem := List.mem_of_getLast? hlast
    have hclose := (hbars.numeric bar hmem).closePrice
    rw [or_iff_right (List.ne_nil_of_mem hmem), ← beyond_eq_ok_iff hclose,
      ← beyond_eq_ok_iff hclose]
    constructor
    · rintro ⟨result, hresult⟩
      obtain ⟨below, hbelow, hrest⟩ := Raise.bind_eq_ok_iff.mp hresult
      exact ⟨⟨below, hbelow⟩, Raise.exists_bind_pure_iff.mp ⟨result, hrest⟩⟩
    · rintro ⟨⟨below, hbelow⟩, habove⟩
      obtain ⟨result, hresult⟩ := Raise.exists_bind_pure_iff.mpr habove
      exact ⟨result, Raise.bind_eq_ok_iff.mpr ⟨below, hbelow, hresult⟩⟩

/-- A payload that is false holds nothing at any path. -/
theorem flag_of_not_truthy (filter : RawFlagFilter) {instrument : InstrumentRow}
    (h : (instrument.rawPayload.getD .none).isTruthy = false) : filter.flag instrument = .none := by
  unfold RawFlagFilter.flag
  cases hpath : filter.path with
  | nil => exact absurd (List.map_eq_nil_iff.mp hpath) (List.splitOn_ne_nil _ _)
  | cons part rest =>
    cases hpayload : instrument.rawPayload.getD .none with
    | dict entries =>
      rw [hpayload] at h
      cases entries with
      | nil => rfl
      | cons entry entries => cases h
    | _ => rfl

theorem RawFlagFilter.evaluate_iff (filter : RawFlagFilter) (data : UniverseFilterInput) :
    (∃ result, filter.evaluate data = .ok result) ↔
      (filter.flag data.instrument).isHashable = true := by
  unfold evaluate
  by_cases htruthy : (data.instrument.rawPayload.getD .none).isTruthy = true
  · rw [if_pos htruthy]
    split
    · next hflag => exact iff_of_true ⟨_, rfl⟩ (by rw [hflag]; rfl)
    · exact Raise.exists_bind_pure_iff.trans (FrozenSet.contains_eq_ok_iff _ _)
  · rw [if_neg htruthy]
    have hflag := flag_of_not_truthy filter (by simpa using htruthy)
    exact iff_of_true ⟨_, rfl⟩ (by rw [hflag]; rfl)

/-- A shipped filter returns exactly when it has an answer. -/
theorem ShippedFilter.evaluate_iff (filter : ShippedFilter) {data : UniverseFilterInput}
    (hbars : NumericBars data.recentBars) :
    (∃ result, filter.toUniverseFilter.evaluate data = .ok result) ↔ filter.Answers data := by
  cases filter with
  | liquidity filter => exact filter.evaluate_iff hbars
  | priceRange filter => exact filter.evaluate_iff hbars
  | rawFlag filter => exact filter.evaluate_iff data

end Scanners
end QuantPlatform
