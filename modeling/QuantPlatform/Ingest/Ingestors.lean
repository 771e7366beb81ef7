/-
The three ingestors: candles, news and disclosures.

Each asks its upstream for items, reads its clock once, and submits one row for
each item with `available_at` and `ingested_at` both set to that reading.  The
items carry no `available_at` of their own: when a row becomes available is when
it was fetched.

An upstream is any function that answers or raises.  `get_candles` checks its
`count` argument, so an upstream that refuses a count is among them.
-/
import QuantPlatform.Db.Database

namespace QuantPlatform
namespace Ingest

open Db Relational Temporal

structure IngestResult where
  source : String
  attempted : Nat
  upserted : Nat
  deriving DecidableEq, Repr

/-- One row for each item, all available from the reading of the clock on. -/
def stampedRows {Item Key Value : Type} (key : Item → Key) (value : Item → Value)
    (now : Instant) (items : List Item) : List (RevisionInput Key Value) :=
  items.map fun item =>
    { key := key item, availableAt := now, ingestedAt := now, value := value item }

/-- One run of an ingestor: its clock reading, its `since`, and what the collector
delivered. -/
structure Delivery (Item : Type) where
  clock : Instant
  since : Instant
  items : List Item

/-- What the runs delivered, in order, each item dated by its run. -/
def delivered {Item Key Value : Type} (key : Item → Key) (value : Item → Value)
    (deliveries : List (Delivery Item)) : List (Fact Key Instant Value) :=
  deliveries.flatMap fun delivery => delivery.items.map fun item =>
    { subject := key item, time := delivery.clock, value := value item }

inductive CandleInterval
  | oneMinute
  | oneDay
  deriving DecidableEq, Repr

def CandleInterval.value : CandleInterval → String
  | oneMinute => "1m"
  | oneDay => "1d"

structure Candle where
  timestamp : Instant
  openPrice : Decimal
  highPrice : Decimal
  lowPrice : Decimal
  closePrice : Decimal
  volume : Decimal
  currency : String
  deriving DecidableEq, Repr

structure CandleSeries where
  interval : String
  candles : List Candle
  deriving DecidableEq, Repr

/-- `get_candles(symbol, interval, count)`. -/
abbrev GetCandles := String → CandleInterval → Int → Except Exn CandleSeries

structure MarketBarIngestor where
  exchange : String := "KRX"
  source : String := "toss_openapi"
  deriving Repr

namespace MarketBarIngestor

def barKey (ingestor : MarketBarIngestor) (instrumentId : Nat) (series : CandleSeries)
    (candle : Candle) : BarKey :=
  { instrumentId, timeframe := series.interval, eventTime := candle.timestamp
    source := ingestor.source }

def barValue (candle : Candle) : BarValue :=
  { openPrice := candle.openPrice, highPrice := candle.highPrice, lowPrice := candle.lowPrice
    closePrice := candle.closePrice, volume := candle.volume, currency := some candle.currency }

/-- The instrument the candles of a symbol belong to, created if need be. -/
def instrument (ingestor : MarketBarIngestor) (instruments : Instruments) (symbol : String) :
    Instruments × InstrumentRow :=
  instruments.getOrCreate ingestor.exchange symbol ingestor.source none none none

def rows (ingestor : MarketBarIngestor) (instrumentId : Nat) (series : CandleSeries)
    (now : Instant) : List BarInput :=
  stampedRows (ingestor.barKey instrumentId series) barValue now series.candles

def ingestCandles (ingestor : MarketBarIngestor) (getCandles : GetCandles) (now : Instant)
    (symbol : String) (interval : CandleInterval) (count : Int) (db : Database) :
    Except Exn (Database × IngestResult) := do
  let (instruments, instrument) := ingestor.instrument db.instruments symbol
  let series ← getCandles symbol interval count
  let rows := ingestor.rows instrument.id series now
  let (marketBars, upserted) := upsertBars db.marketBars rows
  return ({ db with instruments, marketBars },
    { source := ingestor.source, attempted := rows.length, upserted })

/-- What a run writes when upstream answers. -/
theorem ingestCandles_ok (ingestor : MarketBarIngestor) (series : CandleSeries) (now : Instant)
    (symbol : String) (interval : CandleInterval) (count : Int) (db : Database) :
    ingestor.ingestCandles (fun _ _ _ => .ok series) now symbol interval count db =
      let found := ingestor.instrument db.instruments symbol
      let rows := ingestor.rows found.2.id series now
      .ok ({ db with
              instruments := found.1
              marketBars := (appendRevisionRows db.marketBars rows).1 },
        { source := ingestor.source, attempted := rows.length, upserted := rows.length }) :=
  rfl

end MarketBarIngestor

structure NewsArticle where
  source : String
  externalId : String
  eventTime : Instant
  headline : String
  body : Option String := none
  relatedSymbols : Option (List String) := none
  rawPayload : Option PyValue := none

/-- `fetch_latest(since)`. -/
abbrev NewsCollector := Instant → Except Exn (List NewsArticle)

namespace NewsArticle

def key (article : NewsArticle) : EventKey :=
  { source := article.source, externalId := article.externalId }

def value (article : NewsArticle) : NewsValue :=
  { eventTime := article.eventTime, headline := article.headline, body := article.body
    relatedSymbols := article.relatedSymbols, rawPayload := article.rawPayload }

end NewsArticle

namespace NewsIngestor

def rows (articles : List NewsArticle) (now : Instant) : List NewsInput :=
  stampedRows NewsArticle.key NewsArticle.value now articles

def run (fetchLatest : NewsCollector) (now since : Instant) (news : NewsEvents) :
    Except Exn (NewsEvents × IngestResult) := do
  let articles ← fetchLatest since
  let (written, upserted) := upsertNews news (rows articles now)
  let source :=
    match articles with
    | [] => "news"
    | article :: _ => article.source
  return (written, { source, attempted := (rows articles now).length, upserted })

/-- The table after one run after another, from an empty one. -/
def after (deliveries : List (Delivery NewsArticle)) : NewsEvents :=
  deliveries.foldl (fun news delivery =>
    match run (fun _ => .ok delivery.items) delivery.clock delivery.since news with
    | .ok (written, _) => written
    | .error _ => news) Table.empty

end NewsIngestor

structure DisclosureFiling where
  source : String
  externalId : String
  eventTime : Instant
  title : String
  filingType : Option String := none
  instrumentId : Option Nat := none
  rawPayload : Option PyValue := none

/-- `fetch_latest(since)`. -/
abbrev DisclosureCollector := Instant → Except Exn (List DisclosureFiling)

namespace DisclosureFiling

def key (filing : DisclosureFiling) : EventKey :=
  { source := filing.source, externalId := filing.externalId }

def value (filing : DisclosureFiling) : DisclosureValue :=
  { instrumentId := filing.instrumentId, eventTime := filing.eventTime, title := filing.title
    filingType := filing.filingType, rawPayload := filing.rawPayload }

end DisclosureFiling

namespace DisclosureIngestor

def rows (filings : List DisclosureFiling) (now : Instant) : List DisclosureInput :=
  stampedRows DisclosureFiling.key DisclosureFiling.value now filings

def run (fetchLatest : DisclosureCollector) (now since : Instant)
    (disclosures : DisclosureEvents) : Except Exn (DisclosureEvents × IngestResult) := do
  let filings ← fetchLatest since
  let (written, upserted) := upsertDisclosures disclosures (rows filings now)
  let source :=
    match filings with
    | [] => "disclosure"
    | filing :: _ => filing.source
  return (written, { source, attempted := (rows filings now).length, upserted })

/-- The table after one run after another, from an empty one. -/
def after (deliveries : List (Delivery DisclosureFiling)) : DisclosureEvents :=
  deliveries.foldl (fun disclosures delivery =>
    match run (fun _ => .ok delivery.items) delivery.clock delivery.since disclosures with
    | .ok (written, _) => written
    | .error _ => disclosures) Table.empty

end DisclosureIngestor

end Ingest
end QuantPlatform
