import QuantPlatform.Db.MarketData
import QuantPlatform.Python.Arithmetic
import QuantPlatform.Python.Raise
import QuantPlatform.Python.Sequences

namespace QuantPlatform
namespace Models

open Db Raise

structure LabelDefinition where
  horizonDays : Int
  returnThreshold : Decimal
  version : String
  deriving DecidableEq, Repr

structure LabelResult where
  label : Option Int
  forwardReturn : Option Decimal
  reason : Option String
  deriving DecidableEq, Repr

/-- No label, and why. -/
def LabelResult.refused (reason : String) : LabelResult where
  label := none
  forwardReturn := none
  reason := some reason

/-- The label of a return, `1` above the threshold. -/
def LabelDefinition.labelled (definition : LabelDefinition) (forwardReturn : Decimal) :
    Except Exn LabelResult := do
  let above ← Decimal.gt forwardReturn definition.returnThreshold
  return {
    label := some (if above then 1 else 0)
    forwardReturn := some forwardReturn
    reason := none }

def computeForwardReturnLabel (barsFromAsOf : List MarketBarRow) (definition : LabelDefinition) :
    Except Exn LabelResult := do
  let required := definition.horizonDays + 1
  if barsFromAsOf.length < required then
    return .refused s!"need {required} bars from as_of, got {barsFromAsOf.length}"
  let entry ← item barsFromAsOf 0
  let forward ← item barsFromAsOf definition.horizonDays
  if entry.closePrice.eq (Decimal.ofInt 0) then
    return .refused "entry close_price is zero"
  let forwardReturn ← Decimal.changeFrom entry.closePrice forward.closePrice
  definition.labelled forwardReturn

/-- For a horizon of at least one bar a label compares the first bar with the one
`N` positions on, and with no others. -/
theorem computeForwardReturnLabel_eq {bars : List MarketBarRow} {definition : LabelDefinition}
    {n : Nat} (hn : definition.horizonDays = n) {entry forward : MarketBarRow}
    (hentry : bars[0]? = some entry) (hforward : bars[n]? = some forward) :
    computeForwardReturnLabel bars definition =
      if entry.closePrice.eq (Decimal.ofInt 0) then
        .ok (.refused "entry close_price is zero")
      else
        Decimal.changeFrom entry.closePrice forward.closePrice >>= definition.labelled := by
  have hlength : ¬ ((bars.length : Int) < (n : Int) + 1) := by
    have hlt := (List.getElem?_eq_some_iff.mp hforward).1
    omega
  unfold computeForwardReturnLabel
  rw [hn]
  simp only [if_neg hlength]
  have hentry' : item bars 0 = .ok entry := item_natCast_eq_ok_iff.mpr hentry
  rw [hentry', item_natCast_eq_ok_iff.mpr hforward]
  rfl

/-- Fewer bars give no label. -/
theorem computeForwardReturnLabel_short {bars : List MarketBarRow} {definition : LabelDefinition}
    {n : Nat} (hn : definition.horizonDays = n) (hlength : bars.length ≤ n) :
    ∃ reason, computeForwardReturnLabel bars definition = .ok (.refused reason) := by
  have hlt : (bars.length : Int) < (n : Int) + 1 := by omega
  unfold computeForwardReturnLabel
  rw [hn]
  simp only [if_pos hlt]
  exact ⟨_, rfl⟩

/-- A label comes with its return, which is that between the two bars. -/
theorem computeForwardReturnLabel_labelled {bars : List MarketBarRow}
    {definition : LabelDefinition} {n : Nat} (hn : definition.horizonDays = n)
    {result : LabelResult} (h : computeForwardReturnLabel bars definition = .ok result)
    {label : Int} {forwardReturn : Decimal} (hlabel : result.label = some label)
    (hreturn : result.forwardReturn = some forwardReturn) :
    ∃ entry forward, bars[0]? = some entry ∧ bars[n]? = some forward ∧
      Decimal.changeFrom entry.closePrice forward.closePrice = .ok forwardReturn := by
  rcases Nat.lt_or_ge n bars.length with hlt | hge
  · have hentry : bars[0]? = some bars[0] := List.getElem?_eq_getElem (by omega)
    have hforward : bars[n]? = some bars[n] := List.getElem?_eq_getElem hlt
    refine ⟨bars[0], bars[n], hentry, hforward, ?_⟩
    rw [computeForwardReturnLabel_eq hn hentry hforward] at h
    split at h
    · cases h
      cases hlabel
    · obtain ⟨computed, hchange, hlabelled⟩ := bind_eq_ok_iff.mp h
      obtain ⟨above, _, hresult⟩ := bind_eq_ok_iff.mp hlabelled
      cases hresult
      cases hreturn
      exact hchange
  · obtain ⟨reason, hrefused⟩ := computeForwardReturnLabel_short hn hge
    rw [hrefused] at h
    cases h
    cases hlabel

/-- A return that is labelled is a number: a `NaN` is not ordered. -/
theorem ne_nan_of_labelled {bars : List MarketBarRow} {definition : LabelDefinition} {n : Nat}
    (hn : definition.horizonDays = n) {result : LabelResult}
    (h : computeForwardReturnLabel bars definition = .ok result) {forwardReturn : Decimal}
    (hreturn : result.forwardReturn = some forwardReturn) : forwardReturn ≠ .nan := by
  rcases Nat.lt_or_ge n bars.length with hlt | hge
  · have hentry : bars[0]? = some bars[0] := List.getElem?_eq_getElem (by omega)
    rw [computeForwardReturnLabel_eq hn hentry (List.getElem?_eq_getElem hlt)] at h
    split at h
    · cases h
      cases hreturn
    · obtain ⟨computed, _, hlabelled⟩ := bind_eq_ok_iff.mp h
      obtain ⟨above, habove, hresult⟩ := bind_eq_ok_iff.mp hlabelled
      cases hresult
      cases hreturn
      rintro rfl
      cases habove
  · obtain ⟨reason, hrefused⟩ := computeForwardReturnLabel_short hn hge
    rw [hrefused] at h
    cases h
    cases hreturn

end Models
end QuantPlatform
