import QuantPlatform.Db.Columns
import QuantPlatform.Effects.Program
import QuantPlatform.Relational.Table

namespace QuantPlatform
namespace Db

open QuantPlatform.Core Effects Relational

structure StrategyRegistryRow where
  strategyId : String
  version : String
  name : String
  status : String
  source : String
  specCreatedAt : Instant
  syncedAt : Instant
  specJson : PyValue

def StrategyRegistryRow.naturalKey (row : StrategyRegistryRow) : String × String :=
  (row.strategyId, row.version)

abbrev StrategyRows := Table StrategyRegistryRow StrategyRegistryRow.naturalKey

/-- The arguments of `sync_from_spec`. -/
structure SpecValues where
  strategyId : String
  version : String
  name : String
  status : String
  source : String
  specCreatedAt : WrittenDatetime
  specJson : PyValue

/-- What the columns keep of the values; `synced_at` has a default. -/
def SpecValues.toRow (values : SpecValues) (sessionOffset : Int → Int) (now : Instant) :
    Except Raised StrategyRegistryRow := do
  let strategyId ← varchar 64 values.strategyId
  let version ← varchar 32 values.version
  let name ← textColumn values.name
  let status ← varchar 32 values.status
  let source ← varchar 32 values.source
  let specJson ← jsonb values.specJson
  return {
    strategyId, version, name, status, source, specJson
    specCreatedAt := timestamptz sessionOffset values.specCreatedAt
    syncedAt := now }

/-- `ON CONFLICT (strategy_id, version) DO UPDATE SET …`. -/
def syncUpdate : ConflictClause StrategyRegistryRow StrategyRegistryRow.naturalKey where
  set old new :=
    { old with
      name := new.name
      status := new.status
      source := new.source
      specJson := new.specJson
      syncedAt := new.syncedAt }
  key_set _ _ := rfl

def syncFromSpec (sessionOffset : Int → Int) (now : Instant) (values : SpecValues) :
    Program StrategyRows Raised Unit := do
  let row ← Program.lift (values.toRow sessionOffset now)
  Program.modify fun rows => rows.insert syncUpdate row

theorem syncFromSpec_of_toRow {sessionOffset : Int → Int} {now : Instant} {values : SpecValues}
    {row : StrategyRegistryRow} (h : values.toRow sessionOffset now = .ok row)
    (rows : StrategyRows) :
    syncFromSpec sessionOffset now values rows = (.ok (), rows.insert syncUpdate row) := by
  have hrow : Program.lift (values.toRow sessionOffset now) rows = (.ok row, rows) := by
    rw [Program.lift, h]
  rw [syncFromSpec, Program.bind_of_ok hrow]
  rfl

/-- The row a pair has. -/
def getRow (rows : StrategyRows) (strategyId version : String) : Option StrategyRegistryRow :=
  rows.find (strategyId, version)

end Db
end QuantPlatform
