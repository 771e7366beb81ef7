import QuantPlatform.Core.Exceptions
import QuantPlatform.Ingest.Ingestors
import QuantPlatform.Python.Datetime

namespace QuantPlatform
namespace Toss

open QuantPlatform.Core

/-- pydantic's own exception: each failed field with the kind of its failure, and
the text, which quotes the input it refused. -/
structure ValidationError where
  reasons : List (String × String)
  text : String
  deriving DecidableEq, Repr

structure PriceDto where
  symbol : String
  timestamp : String
  lastPrice : String
  currency : String
  deriving DecidableEq, Repr

structure PricesResponseDto where
  result : List PriceDto
  deriving DecidableEq, Repr

structure OrderbookLevelDto where
  price : String
  volume : String
  deriving DecidableEq, Repr

structure OrderbookDto where
  timestamp : String
  currency : String
  asks : List OrderbookLevelDto
  bids : List OrderbookLevelDto
  deriving DecidableEq, Repr

structure OrderbookResponseDto where
  result : OrderbookDto
  deriving DecidableEq, Repr

structure TradeDto where
  price : String
  volume : String
  timestamp : String
  currency : String
  deriving DecidableEq, Repr

structure TradesResponseDto where
  result : List TradeDto
  deriving DecidableEq, Repr

structure CandleDto where
  timestamp : String
  openPrice : String
  highPrice : String
  lowPrice : String
  closePrice : String
  volume : String
  currency : String
  deriving DecidableEq, Repr

structure CandlesResultDto where
  candles : List CandleDto
  nextBefore : Option String
  deriving DecidableEq, Repr

structure CandlesResponseDto where
  result : CandlesResultDto
  deriving DecidableEq, Repr

/-- The envelope of an endpoint without a confirmed schema. -/
structure RawEnvelopeDto where
  result : PyValue
  deriving Repr

/-- The provisional shape of the token response. -/
structure ProvisionalTokenResponseDto where
  accessToken : String
  expiresIn : Int
  deriving DecidableEq, Repr

def toDecimal (value field : String) : Except Raised Decimal :=
  match Decimal.ofStr value with
  | some d => .ok d
  | none =>
      .error {
        cls := .app .dataValidationError
        text := "Could not parse " ++ reprStr field ++ " as a decimal: " ++ reprStr value
        cause := some {
          cls := .other .invalidOperation
          text := "[<class 'decimal.ConversionSyntax'>]" } }

def parseTimestamp (value field : String) : Except Raised Instant :=
  match fromisoformat value with
  | some parsed =>
      match parsed.instant with
      | some t => .ok t
      | none =>
          .error {
            cls := .app .dataValidationError
            text := reprStr field ++ " timestamp is not timezone-aware: " ++ reprStr value }
  | none =>
      .error {
        cls := .app .dataValidationError
        text := "Could not parse " ++ reprStr field ++ " as a timestamp: " ++ reprStr value
        cause := some {
          cls := .other .valueError
          text := "Invalid isoformat string: " ++ reprStr value } }

def tossSourceName : String := "toss_openapi"

structure RecordMetadata where
  source : String
  eventTime : Option Instant
  availableAt : Instant
  ingestedAt : Instant
  rawPayload : Option PyValue
  deriving Repr

structure Quote where
  metadata : RecordMetadata
  symbol : String
  lastPrice : Decimal
  currency : String
  deriving Repr

structure OrderBookLevel where
  price : Decimal
  volume : Decimal
  deriving DecidableEq, Repr

structure OrderBookSnapshot where
  metadata : RecordMetadata
  symbol : String
  currency : String
  asks : List OrderBookLevel
  bids : List OrderBookLevel
  deriving Repr

structure TradeTick where
  metadata : RecordMetadata
  symbol : String
  price : Decimal
  volume : Decimal
  currency : String
  deriving Repr

/-- Its candles are the ones the ingestor stores. -/
structure CandleSeries where
  metadata : RecordMetadata
  symbol : String
  interval : String
  candles : List Ingest.Candle
  nextBefore : Option String
  deriving Repr

/-- A response whose schema is not confirmed, its `result` unmodified. -/
structure UnparsedRecord where
  metadata : RecordMetadata
  result : PyValue
  deriving Repr

end Toss
end QuantPlatform
