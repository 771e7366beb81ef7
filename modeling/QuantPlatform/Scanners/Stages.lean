import QuantPlatform.Db.Database

namespace QuantPlatform
namespace Scanners

open Db

structure UniverseFilterInput where
  instrument : InstrumentRow
  recentBars : List MarketBarRow

structure UniverseFilterResult where
  filterName : String
  passed : Bool
  observedValue : PyValue
  threshold : PyValue
  reason : Option String
  deriving Repr

structure UniverseFilter where
  name : String
  evaluate : UniverseFilterInput → Except Exn UniverseFilterResult

structure EventScanInput where
  bars : List MarketBarRow
  news : List NewsEventRow
  disclosures : List DisclosureEventRow
  orderbook : Option OrderBookSnapshotRow

structure EventDetection where
  eventName : String
  detected : Bool
  observedValue : PyValue
  threshold : PyValue
  market : Option String
  reason : Option String
  deriving Repr

/-- A plugin whose `market` is `none` is market-agnostic. -/
structure EventScannerPlugin where
  name : String
  market : Option String
  detect : EventScanInput → Except Exn EventDetection

/-- `values[name] = value` on a `dict`, which keeps the place of a name it has. -/
def setItem (values : List (String × Decimal)) (name : String) (value : Decimal) :
    List (String × Decimal) :=
  match values with
  | [] => [(name, value)]
  | (n, v) :: rest =>
      if n = name then (name, value) :: rest else (n, v) :: setItem rest name value

structure FeatureSet where
  instrumentSymbol : String
  asOf : Instant
  dataSource : String
  values : List (String × Decimal)
  deriving Repr

def FeatureSet.get (featureSet : FeatureSet) (name : String) : Option Decimal :=
  featureSet.values.lookup name

end Scanners
end QuantPlatform
