/-
The two gateways: market data and portfolio reads.

Each call is one `get` of the client, followed by the validation of the payload and
its conversion into a record.  The validation is pydantic's and raises pydantic's
own exception; an endpoint without a confirmed schema only has its envelope
validated.
-/
import QuantPlatform.Toss.Client

namespace QuantPlatform
namespace Toss

open QuantPlatform.Core Effects Ingest

/-- `Dto.model_validate(payload)`. -/
def validated {α : Type} (result : Except ValidationError α) : Except Raised α :=
  match result with
  | .ok dto => .ok dto
  | .error exc =>
      .error { cls := .other (.other "pydantic.ValidationError"), text := exc.text }

/-- The metadata of a record read from an envelope. -/
def recordMetadata (captureRawPayload : Bool) (envelope : TossResponseEnvelope)
    (eventTime : Option Instant) : RecordMetadata where
  source := tossSourceName
  eventTime := eventTime
  availableAt := envelope.receivedAt
  ingestedAt := envelope.receivedAt
  rawPayload := if captureRawPayload then some envelope.payload else none

/-- A record that keeps `result` as it is. -/
def readUnparsed (env : Env) (captureRawPayload : Bool) (envelope : TossResponseEnvelope) :
    Except Raised UnparsedRecord := do
  let dto ← validated (env.rawEnvelopeDto envelope.payload)
  return { metadata := recordMetadata captureRawPayload envelope none, result := dto.result }

/-- `params or None`. -/
def paramsOrNone (params : List (String × String)) : Option (List (String × PyValue)) :=
  if params = [] then none else some (params.map fun p => (p.1, .str p.2))

structure MarketDataAdapter where
  client : TossRestClient
  captureRawPayload : Bool := false

namespace MarketDataAdapter

def minCandleCount : Int := 1

def maxCandleCount : Int := 200

def metadata (adapter : MarketDataAdapter) (envelope : TossResponseEnvelope)
    (eventTime : Option Instant) : RecordMetadata :=
  recordMetadata adapter.captureRawPayload envelope eventTime

/-- The quote of a price response. -/
def readPrice (env : Env) (adapter : MarketDataAdapter) (symbol : String)
    (envelope : TossResponseEnvelope) : Except Raised Quote := do
  let dto ← validated (env.pricesDto envelope.payload)
  match dto.result with
  | [] =>
      .error {
        cls := .app .dataValidationError
        text := "No price result returned for symbol=" ++ reprStr symbol }
  | item :: _ => do
      let eventTime ← parseTimestamp item.timestamp "timestamp"
      let lastPrice ← toDecimal item.lastPrice "lastPrice"
      return {
        metadata := adapter.metadata envelope (some eventTime)
        symbol := item.symbol, lastPrice, currency := item.currency }

def getPrice (env : Env) (adapter : MarketDataAdapter) (symbol : String) : Action Quote := do
  let envelope ← adapter.client.get env "/api/v1/prices" (some [("symbol", .str symbol)]) false
    (some .stock)
  Program.lift (adapter.readPrice env symbol envelope)

/-- `_level(level)`. -/
def level (level : OrderbookLevelDto) : Except Raised OrderBookLevel := do
  let price ← toDecimal level.price "price"
  let volume ← toDecimal level.volume "volume"
  return { price, volume }

def readOrderbook (env : Env) (adapter : MarketDataAdapter) (symbol : String)
    (envelope : TossResponseEnvelope) : Except Raised OrderBookSnapshot := do
  let dto ← validated (env.orderbookDto envelope.payload)
  let result := dto.result
  let eventTime ← parseTimestamp result.timestamp "timestamp"
  let asks ← result.asks.mapM level
  let bids ← result.bids.mapM level
  return {
    metadata := adapter.metadata envelope (some eventTime)
    symbol, currency := result.currency, asks, bids }

def getOrderbook (env : Env) (adapter : MarketDataAdapter) (symbol : String) :
    Action OrderBookSnapshot := do
  let envelope ← adapter.client.get env "/api/v1/orderbook" (some [("symbol", .str symbol)]) false
    (some .stock)
  Program.lift (adapter.readOrderbook env symbol envelope)

def readTrade (adapter : MarketDataAdapter) (symbol : String) (envelope : TossResponseEnvelope)
    (item : TradeDto) : Except Raised TradeTick := do
  let eventTime ← parseTimestamp item.timestamp "timestamp"
  let price ← toDecimal item.price "price"
  let volume ← toDecimal item.volume "volume"
  return {
    metadata := adapter.metadata envelope (some eventTime)
    symbol, price, volume, currency := item.currency }

def readTrades (env : Env) (adapter : MarketDataAdapter) (symbol : String)
    (envelope : TossResponseEnvelope) : Except Raised (List TradeTick) := do
  let dto ← validated (env.tradesDto envelope.payload)
  dto.result.mapM (adapter.readTrade symbol envelope)

def getTrades (env : Env) (adapter : MarketDataAdapter) (symbol : String) :
    Action (List TradeTick) := do
  let envelope ← adapter.client.get env "/api/v1/trades" (some [("symbol", .str symbol)]) false
    (some .stock)
  Program.lift (adapter.readTrades env symbol envelope)

def readCandle (item : CandleDto) : Except Raised Candle := do
  let timestamp ← parseTimestamp item.timestamp "timestamp"
  let openPrice ← toDecimal item.openPrice "openPrice"
  let highPrice ← toDecimal item.highPrice "highPrice"
  let lowPrice ← toDecimal item.lowPrice "lowPrice"
  let closePrice ← toDecimal item.closePrice "closePrice"
  let volume ← toDecimal item.volume "volume"
  return {
    timestamp, openPrice, highPrice, lowPrice, closePrice, volume
    currency := item.currency }

def readCandles (env : Env) (adapter : MarketDataAdapter) (symbol : String)
    (interval : CandleInterval) (envelope : TossResponseEnvelope) :
    Except Raised CandleSeries := do
  let dto ← validated (env.candlesDto envelope.payload)
  let candles ← dto.result.candles.mapM readCandle
  return {
    metadata := adapter.metadata envelope none
    symbol, interval := interval.value, candles, nextBefore := dto.result.nextBefore }

def getCandles (env : Env) (adapter : MarketDataAdapter) (symbol : String)
    (interval : CandleInterval) (count : Int) (before : Option String) : Action CandleSeries :=
  if ¬ (minCandleCount ≤ count ∧ count ≤ maxCandleCount) then
    raiseOther (.valueError, "count must be between " ++ toString minCandleCount ++ " and " ++
      toString maxCandleCount ++ ", got " ++ toString count)
  else do
    let params := [("symbol", PyValue.str symbol), ("interval", .str interval.value),
      ("count", .int count)] ++ (before.map fun cursor => ("before", PyValue.str cursor)).toList
    let envelope ← adapter.client.get env "/api/v1/candles" (some params) false (some .stock)
    Program.lift (adapter.readCandles env symbol interval envelope)

/-- `_get_unparsed`. -/
def getUnparsed (env : Env) (adapter : MarketDataAdapter) (path : String)
    (params : Option (List (String × PyValue))) (group : RateLimitGroup) :
    Action UnparsedRecord := do
  let envelope ← adapter.client.get env path params false (some group)
  Program.lift (readUnparsed env adapter.captureRawPayload envelope)

def getPriceLimits (env : Env) (adapter : MarketDataAdapter) (symbol : String) :
    Action UnparsedRecord :=
  adapter.getUnparsed env "/api/v1/price-limits" (some [("symbol", .str symbol)]) .stock

def getStocks (env : Env) (adapter : MarketDataAdapter) (params : List (String × String)) :
    Action UnparsedRecord :=
  adapter.getUnparsed env "/api/v1/stocks" (paramsOrNone params) .stock

end MarketDataAdapter

structure PortfolioReadAdapter where
  client : TossRestClient
  captureRawPayload : Bool := false

namespace PortfolioReadAdapter

/-- `_get`. -/
def getRecord (env : Env) (adapter : PortfolioReadAdapter) (path : String)
    (params : Option (List (String × PyValue))) (group : RateLimitGroup) :
    Action UnparsedRecord := do
  let envelope ← adapter.client.get env path params true (some group)
  Program.lift (readUnparsed env adapter.captureRawPayload envelope)

def getAccounts (env : Env) (adapter : PortfolioReadAdapter) : Action UnparsedRecord :=
  adapter.getRecord env "/api/v1/accounts" none .account

def getHoldings (env : Env) (adapter : PortfolioReadAdapter) : Action UnparsedRecord :=
  adapter.getRecord env "/api/v1/holdings" none .asset

def getOrders (env : Env) (adapter : PortfolioReadAdapter) (params : List (String × String)) :
    Action UnparsedRecord :=
  adapter.getRecord env "/api/v1/orders" (paramsOrNone params) .account

def getOrder (env : Env) (adapter : PortfolioReadAdapter) (orderId : String) :
    Action UnparsedRecord :=
  adapter.getRecord env ("/api/v1/orders/" ++ orderId) none .account

def getBuyingPower (env : Env) (adapter : PortfolioReadAdapter)
    (params : List (String × String)) : Action UnparsedRecord :=
  adapter.getRecord env "/api/v1/buying-power" (paramsOrNone params) .account

def getSellableQuantity (env : Env) (adapter : PortfolioReadAdapter) (symbol : String) :
    Action UnparsedRecord :=
  adapter.getRecord env "/api/v1/sellable-quantity" (some [("symbol", .str symbol)]) .account

def getCommissions (env : Env) (adapter : PortfolioReadAdapter)
    (params : List (String × String)) : Action UnparsedRecord :=
  adapter.getRecord env "/api/v1/commissions" (paramsOrNone params) .account

end PortfolioReadAdapter

structure TossGateways where
  marketData : MarketDataAdapter
  portfolio : PortfolioReadAdapter

end Toss
end QuantPlatform
