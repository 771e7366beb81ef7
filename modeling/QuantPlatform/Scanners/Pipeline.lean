/-
`ScannerPipeline`: market, universe filters, event plugins, strategy rules.

Every read of the pipeline is a repository read at `as_of`.  SQL leaves the order
of rows that tie on `event_time` open, so the reads of one instrument go through
an `Engine`, one arrangement for each query, and what a scan may produce is what
some engine makes it produce.

A filter, a plugin or a comparison may raise, and so may the dates of a lookback
window; then there is no candidate.
-/
import QuantPlatform.Scanners.StrategyRules

namespace QuantPlatform
namespace Scanners

open Db Relational

structure Candidate where
  instrumentId : Nat
  symbol : String
  exchange : String
  asOf : Instant
  dataSource : String
  universeResults : List UniverseFilterResult
  eventDetections : List EventDetection
  strategyResult : Option StrategyScanResult
  qualified : Bool
  generatedAt : Instant

structure PipelineConfig where
  timeframe : String
  lookbackDays : Int
  newsLookbackDays : Int
  disclosureLookbackDays : Int
  exchange : Option String := none

structure ScannerPipeline where
  config : PipelineConfig
  universeFilters : List UniverseFilter
  eventScanners : List EventScannerPlugin
  strategyRuleSet : Option StrategyRuleSet
  dataSource : String

/-- How the queries of one instrument's scan arrange rows that tie. -/
structure Engine where
  bars : BarOrder
  news : NewsOrder
  disclosures : DisclosureOrder
  snapshots : SnapshotOrder

/-- The engine that leaves ties as they were written. -/
def Engine.stable : Engine where
  bars := OrderBy.byColumn _
  news := OrderBy.byColumn _
  disclosures := OrderBy.byColumn _
  snapshots := OrderBy.byColumnDesc _

namespace ScannerPipeline

variable (pipeline : ScannerPipeline)

def readBars (engine : Engine) (db : Database) (instrument : InstrumentRow) (asOf : Instant) :
    Except Exn (List MarketBarRow) := do
  let start ← Instant.minusDays asOf pipeline.config.lookbackDays
  return getBarsAsOf engine.bars db.marketBars instrument.id pipeline.config.timeframe start
    asOf asOf

def readEventInput (engine : Engine) (db : Database) (instrument : InstrumentRow)
    (asOf : Instant) (bars : List MarketBarRow) : Except Exn EventScanInput := do
  let newsStart ← Instant.minusDays asOf pipeline.config.newsLookbackDays
  let news := getNewsAsOf engine.news db.newsEvents newsStart asOf asOf (some instrument.symbol)
  let disclosureStart ← Instant.minusDays asOf pipeline.config.disclosureLookbackDays
  let disclosures := getDisclosuresAsOf engine.disclosures db.disclosureEvents disclosureStart
    asOf asOf (some instrument.id)
  let orderbook := getLatestAsOf engine.snapshots db.orderbookSnapshots instrument.id asOf
  return { bars, news, disclosures, orderbook }

/-- A plugin runs for an instrument when it is market-agnostic or of its exchange. -/
def applies (scanner : EventScannerPlugin) (instrument : InstrumentRow) : Bool :=
  match scanner.market with
  | none => true
  | some market => decide (market = instrument.exchange)

def applicableScanners (instrument : InstrumentRow) : List EventScannerPlugin :=
  pipeline.eventScanners.filter fun scanner => applies scanner instrument

def buildFeatureSet (instrument : InstrumentRow) (bars : List MarketBarRow)
    (eventDetections : List EventDetection) (asOf : Instant) : FeatureSet :=
  let values :=
    match bars.getLast? with
    | none => []
    | some latest =>
        setItem (setItem [] "close_price" latest.closePrice) "volume" latest.volume
  let values := eventDetections.foldl (fun values detection =>
    match detection.observedValue with
    | .decimal d => setItem values detection.eventName d
    | _ => values) values
  { instrumentSymbol := instrument.symbol, asOf, dataSource := pipeline.dataSource, values }

/-- The candidate of an instrument with the evidence gathered so far. -/
def candidate (instrument : InstrumentRow) (asOf : Instant)
    (universeResults : List UniverseFilterResult) (eventDetections : List EventDetection)
    (strategyResult : Option StrategyScanResult) (qualified : Bool) : Candidate :=
  { instrumentId := instrument.id
    symbol := instrument.symbol
    exchange := instrument.exchange
    asOf
    dataSource := pipeline.dataSource
    universeResults
    eventDetections
    strategyResult
    qualified
    generatedAt := asOf }

def evaluateRules (featureSet : FeatureSet) : Except Exn (Option StrategyScanResult) :=
  match pipeline.strategyRuleSet with
  | none => .ok none
  | some ruleSet => do
      let result ← StrategyScanner.evaluate ruleSet featureSet
      return some result

def scanInstrument (engine : Engine) (db : Database) (instrument : InstrumentRow)
    (asOf : Instant) : Except Exn Candidate := do
  let bars ← pipeline.readBars engine db instrument asOf
  let universeResults ← pipeline.universeFilters.mapM fun f =>
    f.evaluate { instrument, recentBars := bars }
  if universeResults.all UniverseFilterResult.passed then
    let eventInput ← pipeline.readEventInput engine db instrument asOf bars
    let applicable := pipeline.applicableScanners instrument
    let eventDetections ← applicable.mapM fun scanner => scanner.detect eventInput
    -- Without an applicable plugin the stage lets the instrument pass.
    let hasTriggeringEvent :=
      if applicable.isEmpty then true else eventDetections.any EventDetection.detected
    if hasTriggeringEvent then
      let featureSet := pipeline.buildFeatureSet instrument bars eventDetections asOf
      let strategyResult ← pipeline.evaluateRules featureSet
      let qualified :=
        match strategyResult with
        | none => true
        | some result => result.passed
      return pipeline.candidate instrument asOf universeResults eventDetections strategyResult
        qualified
    else
      return pipeline.candidate instrument asOf universeResults eventDetections none false
  else
    return pipeline.candidate instrument asOf universeResults [] none false

/-- One candidate for each instrument of the market. -/
def scan (market : OrderBy InstrumentRow byExchangeAndSymbol) (engines : InstrumentRow → Engine)
    (db : Database) (asOf : Instant) : Except Exn (List Candidate) :=
  (listAll market db.instruments pipeline.config.exchange).mapM fun instrument =>
    pipeline.scanInstrument (engines instrument) db instrument asOf

end ScannerPipeline

end Scanners
end QuantPlatform
