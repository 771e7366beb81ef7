/-
Which numbers come in through the gateways.

`to_decimal` takes whatever `Decimal` does, and `Decimal` takes the spellings of `NaN` and
of the infinities.  A price that is none goes into the record, and with the candles into
the table of bars, where a filter compares it.  Without such a spelling every number of a
record is finite, and every comparison of the bars is defined.
-/
import QuantPlatform.Scanners.Definedness
import QuantPlatform.Toss.Errors

namespace QuantPlatform
namespace Toss

open QuantPlatform.Core Effects Ingest Db Scanners

/-- The text is that of a `NaN` or an infinity. -/
def SpellsNonFinite (text : String) : Prop := ∃ d, Decimal.ofStr text = some d ∧ ¬ d.IsFinite

/-- The text is that of an instant: it has an offset from UTC. -/
def WritesInstant (text : String) (t : Instant) : Prop :=
  ∃ written, fromisoformat text = some written ∧ written.utcoffset.isSome = true ∧
    written.instant = some t

def WritesNumber (text : String) (d : Decimal) : Prop := Decimal.ofStr text = some d

theorem toDecimal_eq_ok_iff {value field : String} {d : Decimal} :
    toDecimal value field = .ok d ↔ WritesNumber value d := by
  unfold toDecimal WritesNumber
  split
  · next d' hd =>
    rw [hd, Except.ok.injEq, Option.some.injEq]
  · next hnone =>
    rw [hnone]
    exact iff_of_false nofun nofun

theorem parseTimestamp_eq_ok_iff {value field : String} {t : Instant} :
    parseTimestamp value field = .ok t ↔ WritesInstant value t := by
  unfold parseTimestamp WritesInstant
  cases fromisoformat value with
  | none =>
    refine iff_of_false nofun ?_
    rintro ⟨_, h, _⟩
    cases h
  | some written =>
    dsimp only
    cases ht : written.instant with
    | none =>
      refine iff_of_false nofun ?_
      rintro ⟨_, h, _, hinstant⟩
      rw [← Option.some.inj h, ht] at hinstant
      cases hinstant
    | some t' =>
      have haware : written.utcoffset.isSome = true := by
        rw [WrittenDatetime.instant] at ht
        cases hoffset : written.utcoffset with
        | none =>
          rw [hoffset] at ht
          cases ht
        | some offset => rfl
      constructor
      · intro h
        exact ⟨written, rfl, haware, ht.trans (congrArg some (Except.ok.inj h))⟩
      · rintro ⟨_, h, _, hinstant⟩
        rw [← Option.some.inj h, ht] at hinstant
        exact congrArg Except.ok (Option.some.inj hinstant)

/-- A reading that returns exactly when it is `readable`, and else refuses the data. -/
structure RefusesOnly {α : Type} (readable : Prop) (result : Except Raised α) : Prop where
  ok_iff : (∃ a, result = .ok a) ↔ readable
  refuses : ∀ e, result = .error e → e.cls = .app .dataValidationError

section RefusesOnly

variable {α β : Type} {p q : Prop}

theorem RefusesOnly.congr {x : Except Raised α} (h : RefusesOnly p x) (hpq : p ↔ q) :
    RefusesOnly q x :=
  ⟨h.ok_iff.trans hpq, h.refuses⟩

theorem refusesOnly_ok (a : α) : RefusesOnly True (.ok a) :=
  ⟨iff_of_true ⟨a, rfl⟩ trivial, nofun⟩

theorem RefusesOnly.bind {x : Except Raised α} {f : α → Except Raised β} (hx : RefusesOnly p x)
    (hf : ∀ a, RefusesOnly q (f a)) : RefusesOnly (p ∧ q) (x >>= f) := by
  constructor
  · rw [Raise.exists_bind_eq_ok_iff]
    constructor
    · rintro ⟨a, ha, hok⟩
      exact ⟨hx.ok_iff.mp ⟨a, ha⟩, (hf a).ok_iff.mp hok⟩
    · rintro ⟨hp, hq⟩
      obtain ⟨a, ha⟩ := hx.ok_iff.mpr hp
      exact ⟨a, ha, (hf a).ok_iff.mpr hq⟩
  · intro e h
    cases x with
    | ok a => exact (hf a).refuses e h
    | error e' =>
      have he : e' = e := Except.error.inj h
      exact he ▸ hx.refuses e' rfl

theorem RefusesOnly.mapM {f : α → Except Raised β} {readable : α → Prop}
    (hf : ∀ a, RefusesOnly (readable a) (f a)) (xs : List α) :
    RefusesOnly (∀ x ∈ xs, readable x) (xs.mapM f) := by
  induction xs with
  | nil => exact (refusesOnly_ok []).congr (by simp)
  | cons x xs ih =>
    rw [List.mapM_cons]
    refine ((hf x).bind fun y => ih.bind fun ys => refusesOnly_ok (y :: ys)).congr ?_
    rw [and_true, List.forall_mem_cons]

theorem refusesOnly_toDecimal (value field : String) :
    RefusesOnly (∃ d, WritesNumber value d) (toDecimal value field) := by
  refine ⟨exists_congr fun d => toDecimal_eq_ok_iff, ?_⟩
  unfold toDecimal
  split
  · exact nofun
  · intro e h
    cases h
    rfl

theorem refusesOnly_parseTimestamp (value field : String) :
    RefusesOnly (∃ t, WritesInstant value t) (parseTimestamp value field) := by
  refine ⟨exists_congr fun t => parseTimestamp_eq_ok_iff, ?_⟩
  unfold parseTimestamp
  split
  · split
    · exact nofun
    · intro e h
      cases h
      rfl
  · intro e h
    cases h
    rfl

end RefusesOnly

/-! ## The texts of a payload -/

/-- Texts that are read, as timestamps and as numbers. -/
structure Texts where
  timestamps : List String
  numbers : List String

/-- All of them can be read. -/
def Texts.Parse (texts : Texts) : Prop :=
  (∀ text ∈ texts.timestamps, ∃ t, WritesInstant text t) ∧
    ∀ text ∈ texts.numbers, ∃ d, WritesNumber text d

/-- What was read of them. -/
structure Texts.Convey (texts : Texts) (times : List Instant) (decimals : List Decimal) :
    Prop where
  times : List.Forall₂ WritesInstant texts.timestamps times
  decimals : List.Forall₂ WritesNumber texts.numbers decimals

/-- A number that was read is one of the texts. -/
theorem Texts.Convey.exists_text {texts : Texts} {times : List Instant} {decimals : List Decimal}
    (h : texts.Convey times decimals) {d : Decimal} (hd : d ∈ decimals) :
    ∃ text ∈ texts.numbers, WritesNumber text d := by
  have hall := h.decimals
  clear h
  generalize texts.numbers = numbers at hall ⊢
  induction hall with
  | nil => cases hd
  | cons hfirst _ ih =>
    rcases List.mem_cons.mp hd with rfl | hd
    · exact ⟨_, List.mem_cons_self, hfirst⟩
    · obtain ⟨text, htext, hwrites⟩ := ih hd
      exact ⟨text, List.mem_cons_of_mem _ htext, hwrites⟩

def Texts.flatMap {α : Type} (items : List α) (texts : α → Texts) : Texts where
  timestamps := items.flatMap fun item => (texts item).timestamps
  numbers := items.flatMap fun item => (texts item).numbers

theorem Texts.parse_flatMap_iff {α : Type} {items : List α} {texts : α → Texts} :
    (Texts.flatMap items texts).Parse ↔ ∀ item ∈ items, (texts item).Parse := by
  simp only [Parse, flatMap, List.mem_flatMap, forall_exists_index, and_imp]
  constructor
  · exact fun h item hitem =>
      ⟨fun text => h.1 text item hitem, fun text => h.2 text item hitem⟩
  · exact fun h => ⟨fun text item hitem => (h item hitem).1 text,
      fun text item hitem => (h item hitem).2 text⟩

theorem Texts.convey_flatMap {α β : Type} {items : List α} {texts : α → Texts} {records : List β}
    {times : β → List Instant} {decimals : β → List Decimal}
    (h : List.Forall₂ (fun item record => (texts item).Convey (times record) (decimals record))
      items records) :
    (Texts.flatMap items texts).Convey (records.flatMap times) (records.flatMap decimals) where
  times := List.rel_flatMap (h.imp fun _ _ h => h.times) fun _ _ h => h
  decimals := List.rel_flatMap (h.imp fun _ _ h => h.decimals) fun _ _ h => h

def PriceDto.texts (item : PriceDto) : Texts where
  timestamps := [item.timestamp]
  numbers := [item.lastPrice]

def OrderbookLevelDto.texts (level : OrderbookLevelDto) : Texts where
  timestamps := []
  numbers := [level.price, level.volume]

def OrderbookDto.texts (result : OrderbookDto) : Texts where
  timestamps := [result.timestamp]
  numbers := (Texts.flatMap (result.asks ++ result.bids) OrderbookLevelDto.texts).numbers

def TradeDto.texts (item : TradeDto) : Texts where
  timestamps := [item.timestamp]
  numbers := [item.price, item.volume]

def CandleDto.texts (item : CandleDto) : Texts where
  timestamps := [item.timestamp]
  numbers := [item.openPrice, item.highPrice, item.lowPrice, item.closePrice, item.volume]

namespace GatewayCall

/-- What the call reads of a payload; of a list of prices that is the first. -/
def reads (env : Env) (payload : PyValue) : GatewayCall → Option Texts
  | getPrice _ => (env.pricesDto payload).toOption.bind fun dto =>
      dto.result.head?.map PriceDto.texts
  | getOrderbook _ => (env.orderbookDto payload).toOption.map fun dto => dto.result.texts
  | getTrades _ => (env.tradesDto payload).toOption.map fun dto =>
      Texts.flatMap dto.result TradeDto.texts
  | getCandles _ _ _ _ => (env.candlesDto payload).toOption.map fun dto =>
      Texts.flatMap dto.result.candles CandleDto.texts
  | _ => (env.rawEnvelopeDto payload).toOption.map fun _ => { timestamps := [], numbers := [] }

/-- Every price and every volume of the payload. -/
def numbers (env : Env) (payload : PyValue) (call : GatewayCall) : List String :=
  match call with
  | getPrice _ => (env.pricesDto payload).toOption.elim [] fun dto =>
      dto.result.map PriceDto.lastPrice
  | _ => (call.reads env payload).elim [] Texts.numbers

/-- What the call reads can be read. -/
def Readable (env : Env) (call : GatewayCall) (payload : PyValue) : Prop :=
  ∃ texts, call.reads env payload = some texts ∧ texts.Parse

end GatewayCall

def Quote.decimals (quote : Quote) : List Decimal := [quote.lastPrice]

def OrderBookLevel.decimals (level : OrderBookLevel) : List Decimal := [level.price, level.volume]

def TradeTick.decimals (tick : TradeTick) : List Decimal := [tick.price, tick.volume]

def candleDecimals (candle : Candle) : List Decimal :=
  [candle.openPrice, candle.highPrice, candle.lowPrice, candle.closePrice, candle.volume]

namespace GatewayRecord

/-- The timestamps of the record. -/
def times : GatewayRecord → List Instant
  | .quote record => record.metadata.eventTime.toList
  | .orderBook snapshot => snapshot.metadata.eventTime.toList
  | .trades ticks => ticks.flatMap fun tick => tick.metadata.eventTime.toList
  | .candles series => series.candles.flatMap fun candle => [candle.timestamp]
  | .unparsed _ => []

/-- The prices and volumes of the record. -/
def decimals : GatewayRecord → List Decimal
  | .quote record => record.decimals
  | .orderBook snapshot => (snapshot.asks ++ snapshot.bids).flatMap OrderBookLevel.decimals
  | .trades ticks => ticks.flatMap TradeTick.decimals
  | .candles series => series.candles.flatMap candleDecimals
  | .unparsed _ => []

end GatewayRecord

/-! ## What the readings convey -/

section Readings

variable {env : Env} {adapter : MarketDataAdapter} {symbol : String}
  {envelope : TossResponseEnvelope}

theorem level_convey {dto : OrderbookLevelDto} {level : OrderBookLevel}
    (h : MarketDataAdapter.level dto = .ok level) : dto.texts.Convey [] level.decimals := by
  obtain ⟨price, hprice, h⟩ := Raise.bind_eq_ok_iff.mp h
  obtain ⟨volume, hvolume, h⟩ := Raise.bind_eq_ok_iff.mp h
  cases h
  refine ⟨.nil, .cons ?_ (.cons ?_ .nil)⟩
  · exact toDecimal_eq_ok_iff.mp hprice
  · exact toDecimal_eq_ok_iff.mp hvolume

theorem level_refusesOnly (dto : OrderbookLevelDto) :
    RefusesOnly dto.texts.Parse (MarketDataAdapter.level dto) :=
  ((refusesOnly_toDecimal _ _).bind fun _ => (refusesOnly_toDecimal _ _).bind fun _ =>
    refusesOnly_ok _).congr (by simp [Texts.Parse, OrderbookLevelDto.texts])

theorem readTrade_convey {item : TradeDto} {tick : TradeTick}
    (h : adapter.readTrade symbol envelope item = .ok tick) :
    item.texts.Convey tick.metadata.eventTime.toList tick.decimals := by
  obtain ⟨t, ht, h⟩ := Raise.bind_eq_ok_iff.mp h
  obtain ⟨price, hprice, h⟩ := Raise.bind_eq_ok_iff.mp h
  obtain ⟨volume, hvolume, h⟩ := Raise.bind_eq_ok_iff.mp h
  cases h
  refine ⟨.cons ?_ .nil, .cons ?_ (.cons ?_ .nil)⟩
  · exact parseTimestamp_eq_ok_iff.mp ht
  · exact toDecimal_eq_ok_iff.mp hprice
  · exact toDecimal_eq_ok_iff.mp hvolume

theorem readTrade_refusesOnly (item : TradeDto) :
    RefusesOnly item.texts.Parse (adapter.readTrade symbol envelope item) :=
  ((refusesOnly_parseTimestamp _ _).bind fun _ => (refusesOnly_toDecimal _ _).bind fun _ =>
    (refusesOnly_toDecimal _ _).bind fun _ => refusesOnly_ok _).congr
      (by simp [Texts.Parse, TradeDto.texts])

theorem readCandle_convey {item : CandleDto} {candle : Candle}
    (h : MarketDataAdapter.readCandle item = .ok candle) :
    item.texts.Convey [candle.timestamp] (candleDecimals candle) := by
  obtain ⟨t, ht, h⟩ := Raise.bind_eq_ok_iff.mp h
  obtain ⟨openPrice, hopen, h⟩ := Raise.bind_eq_ok_iff.mp h
  obtain ⟨highPrice, hhigh, h⟩ := Raise.bind_eq_ok_iff.mp h
  obtain ⟨lowPrice, hlow, h⟩ := Raise.bind_eq_ok_iff.mp h
  obtain ⟨closePrice, hclose, h⟩ := Raise.bind_eq_ok_iff.mp h
  obtain ⟨volume, hvolume, h⟩ := Raise.bind_eq_ok_iff.mp h
  cases h
  refine ⟨.cons ?_ .nil, .cons ?_ (.cons ?_ (.cons ?_ (.cons ?_ (.cons ?_ .nil))))⟩
  · exact parseTimestamp_eq_ok_iff.mp ht
  · exact toDecimal_eq_ok_iff.mp hopen
  · exact toDecimal_eq_ok_iff.mp hhigh
  · exact toDecimal_eq_ok_iff.mp hlow
  · exact toDecimal_eq_ok_iff.mp hclose
  · exact toDecimal_eq_ok_iff.mp hvolume

theorem readCandle_refusesOnly (item : CandleDto) :
    RefusesOnly item.texts.Parse (MarketDataAdapter.readCandle item) :=
  ((refusesOnly_parseTimestamp _ _).bind fun _ => (refusesOnly_toDecimal _ _).bind fun _ =>
    (refusesOnly_toDecimal _ _).bind fun _ => (refusesOnly_toDecimal _ _).bind fun _ =>
    (refusesOnly_toDecimal _ _).bind fun _ => (refusesOnly_toDecimal _ _).bind fun _ =>
    refusesOnly_ok _).congr (by simp [Texts.Parse, CandleDto.texts])

theorem readPrice_convey {dto : PricesResponseDto} (hdto : env.pricesDto envelope.payload = .ok dto)
    {record : Quote} (h : adapter.readPrice env symbol envelope = .ok record) :
    ∃ item, dto.result.head? = some item ∧
      item.texts.Convey record.metadata.eventTime.toList record.decimals := by
  rw [MarketDataAdapter.readPrice, hdto] at h
  obtain ⟨_, ⟨⟩, h⟩ := Raise.bind_eq_ok_iff.mp h
  split at h
  · cases h
  · next item rest hitems =>
    obtain ⟨t, ht, h⟩ := Raise.bind_eq_ok_iff.mp h
    obtain ⟨lastPrice, hlastPrice, h⟩ := Raise.bind_eq_ok_iff.mp h
    cases h
    refine ⟨item, by rw [hitems]; rfl, .cons ?_ .nil, .cons ?_ .nil⟩
    · exact parseTimestamp_eq_ok_iff.mp ht
    · exact toDecimal_eq_ok_iff.mp hlastPrice

theorem validated_bind {α β : Type} (dto : α) (f : α → Except Raised β) :
    validated (.ok dto) >>= f = f dto := rfl

theorem readPrice_refusesOnly {dto : PricesResponseDto}
    (hdto : env.pricesDto envelope.payload = .ok dto) :
    RefusesOnly (∃ item, dto.result.head? = some item ∧ item.texts.Parse)
      (adapter.readPrice env symbol envelope) := by
  rw [MarketDataAdapter.readPrice, hdto, validated_bind]
  split
  · next hnone =>
    rw [hnone]
    refine ⟨iff_of_false nofun nofun, fun e h => ?_⟩
    cases h
    rfl
  · next item rest hitems =>
    rw [hitems]
    exact ((refusesOnly_parseTimestamp _ _).bind fun _ => (refusesOnly_toDecimal _ _).bind fun _ =>
      refusesOnly_ok _).congr (by simp [Texts.Parse, PriceDto.texts])

theorem readOrderbook_convey {dto : OrderbookResponseDto}
    (hdto : env.orderbookDto envelope.payload = .ok dto) {record : OrderBookSnapshot}
    (h : adapter.readOrderbook env symbol envelope = .ok record) :
    dto.result.texts.Convey record.metadata.eventTime.toList
      ((record.asks ++ record.bids).flatMap OrderBookLevel.decimals) := by
  rw [MarketDataAdapter.readOrderbook, hdto] at h
  obtain ⟨_, ⟨⟩, h⟩ := Raise.bind_eq_ok_iff.mp h
  obtain ⟨t, ht, h⟩ := Raise.bind_eq_ok_iff.mp h
  obtain ⟨asks, hasks, h⟩ := Raise.bind_eq_ok_iff.mp h
  obtain ⟨bids, hbids, h⟩ := Raise.bind_eq_ok_iff.mp h
  cases h
  have hlevels := List.rel_append (Raise.mapM_eq_ok_iff.mp hasks) (Raise.mapM_eq_ok_iff.mp hbids)
  refine ⟨.cons (parseTimestamp_eq_ok_iff.mp ht) .nil, ?_⟩
  exact List.rel_flatMap hlevels fun _ _ hlevel => (level_convey hlevel).decimals

theorem readOrderbook_refusesOnly {dto : OrderbookResponseDto}
    (hdto : env.orderbookDto envelope.payload = .ok dto) :
    RefusesOnly dto.result.texts.Parse (adapter.readOrderbook env symbol envelope) := by
  rw [MarketDataAdapter.readOrderbook, hdto, validated_bind]
  refine ((refusesOnly_parseTimestamp _ _).bind fun _ =>
    (RefusesOnly.mapM level_refusesOnly _).bind fun _ =>
    (RefusesOnly.mapM level_refusesOnly _).bind fun _ => refusesOnly_ok _).congr ?_
  rw [and_true, ← List.forall_mem_append, ← Texts.parse_flatMap_iff]
  simp [Texts.Parse, OrderbookDto.texts, Texts.flatMap, OrderbookLevelDto.texts]

theorem readTrades_convey {dto : TradesResponseDto}
    (hdto : env.tradesDto envelope.payload = .ok dto) {ticks : List TradeTick}
    (h : adapter.readTrades env symbol envelope = .ok ticks) :
    (Texts.flatMap dto.result TradeDto.texts).Convey
      (ticks.flatMap fun tick => tick.metadata.eventTime.toList)
      (ticks.flatMap TradeTick.decimals) := by
  rw [MarketDataAdapter.readTrades, hdto] at h
  obtain ⟨_, ⟨⟩, h⟩ := Raise.bind_eq_ok_iff.mp h
  exact Texts.convey_flatMap ((Raise.mapM_eq_ok_iff.mp h).imp fun _ _ => readTrade_convey)

theorem readTrades_refusesOnly {dto : TradesResponseDto}
    (hdto : env.tradesDto envelope.payload = .ok dto) :
    RefusesOnly (Texts.flatMap dto.result TradeDto.texts).Parse
      (adapter.readTrades env symbol envelope) := by
  rw [MarketDataAdapter.readTrades, hdto, validated_bind]
  exact (RefusesOnly.mapM readTrade_refusesOnly _).congr Texts.parse_flatMap_iff.symm

theorem readCandles_convey {interval : CandleInterval} {dto : CandlesResponseDto}
    (hdto : env.candlesDto envelope.payload = .ok dto) {series : CandleSeries}
    (h : adapter.readCandles env symbol interval envelope = .ok series) :
    (Texts.flatMap dto.result.candles CandleDto.texts).Convey
      (series.candles.flatMap fun candle => [candle.timestamp])
      (series.candles.flatMap candleDecimals) := by
  rw [MarketDataAdapter.readCandles, hdto] at h
  obtain ⟨_, ⟨⟩, h⟩ := Raise.bind_eq_ok_iff.mp h
  obtain ⟨candles, hcandles, h⟩ := Raise.bind_eq_ok_iff.mp h
  cases h
  exact Texts.convey_flatMap ((Raise.mapM_eq_ok_iff.mp hcandles).imp fun _ _ => readCandle_convey)

theorem readCandles_refusesOnly {interval : CandleInterval} {dto : CandlesResponseDto}
    (hdto : env.candlesDto envelope.payload = .ok dto) :
    RefusesOnly (Texts.flatMap dto.result.candles CandleDto.texts).Parse
      (adapter.readCandles env symbol interval envelope) := by
  rw [MarketDataAdapter.readCandles, hdto, validated_bind]
  refine ((RefusesOnly.mapM readCandle_refusesOnly _).bind fun _ => refusesOnly_ok _).congr ?_
  rw [and_true, Texts.parse_flatMap_iff]

theorem readUnparsed_refusesOnly {dto : RawEnvelopeDto} (captureRawPayload : Bool)
    (hdto : env.rawEnvelopeDto envelope.payload = .ok dto) :
    RefusesOnly True (readUnparsed env captureRawPayload envelope) := by
  rw [readUnparsed, hdto]
  exact refusesOnly_ok _

end Readings

section Calls

variable {env : Env} {gateways : TossGateways} {call : GatewayCall}
  {envelope : TossResponseEnvelope}

theorem RefusesOnly.map {α β : Type} {p : Prop} {x : Except Raised α} (h : RefusesOnly p x)
    (f : α → β) : RefusesOnly p (x.map f) := by
  refine ⟨?_, fun e he => ?_⟩
  · rw [← h.ok_iff]
    cases x with
    | ok a => exact iff_of_true ⟨f a, rfl⟩ ⟨a, rfl⟩
    | error e => exact iff_of_false nofun nofun
  · cases x with
    | ok a => cases he
    | error e' =>
      cases he
      exact h.refuses _ rfl

theorem exists_ok_of_map {α β : Type} {x : Except Raised α} {f : α → β} {b : β}
    (h : x.map f = .ok b) : ∃ a, x = .ok a ∧ f a = b := by
  cases x with
  | ok a => exact ⟨a, rfl, Except.ok.inj h⟩
  | error e => cases h

theorem exists_dto {α : Type} {x : Except ValidationError α} (h : ¬ ∃ exc, x = .error exc) :
    ∃ dto, x = .ok dto := by
  cases x with
  | ok dto => exact ⟨dto, rfl⟩
  | error exc => exact absurd ⟨exc, rfl⟩ h

theorem GatewayCall.readable_iff {payload : PyValue} {texts : Texts}
    (h : call.reads env payload = some texts) : call.Readable env payload ↔ texts.Parse := by
  rw [Readable, h]
  simp

/-- A payload that pydantic refuses has no numbers, and nothing in it is read. -/
theorem not_readable_of_rejects (h : call.Rejects env envelope.payload) :
    ¬ call.Readable env envelope.payload ∧ call.numbers env envelope.payload = [] := by
  have hnone : call.reads env envelope.payload = none := by
    cases call <;> (obtain ⟨exc, hexc⟩ := h; simp [GatewayCall.reads, hexc, Except.toOption])
  refine ⟨?_, ?_⟩
  · rintro ⟨texts, htexts, _⟩
    rw [hnone] at htexts
    cases htexts
  · cases call with
    | getPrice symbol =>
      obtain ⟨exc, hexc⟩ := h
      simp [GatewayCall.numbers, hexc, Except.toOption]
    | _ => simp [GatewayCall.numbers, hnone]

/-- Of a payload without a schema no text is read. -/
theorem reads_unparsed {dto : RawEnvelopeDto} {payload : PyValue}
    (h : call.reads env payload = (env.rawEnvelopeDto payload).toOption.map fun _ =>
      { timestamps := [], numbers := [] })
    (hdto : env.rawEnvelopeDto payload = .ok dto) :
    call.reads env payload = some { timestamps := [], numbers := [] } := by
  rw [h, hdto]
  rfl

theorem read_refusesOnly (h : ¬ call.Rejects env envelope.payload) :
    RefusesOnly (call.Readable env envelope.payload) (call.read env gateways envelope) := by
  cases call with
  | getPrice symbol =>
    obtain ⟨dto, hdto⟩ := exists_dto h
    refine ((readPrice_refusesOnly hdto).map _).congr ?_
    simp [GatewayCall.Readable, GatewayCall.reads, hdto, Except.toOption]
  | getOrderbook symbol =>
    obtain ⟨dto, hdto⟩ := exists_dto h
    refine ((readOrderbook_refusesOnly hdto).map _).congr (GatewayCall.readable_iff ?_).symm
    rw [GatewayCall.reads, hdto]
    rfl
  | getTrades symbol =>
    obtain ⟨dto, hdto⟩ := exists_dto h
    refine ((readTrades_refusesOnly hdto).map _).congr (GatewayCall.readable_iff ?_).symm
    rw [GatewayCall.reads, hdto]
    rfl
  | getCandles symbol interval count before =>
    obtain ⟨dto, hdto⟩ := exists_dto h
    refine ((readCandles_refusesOnly hdto).map _).congr (GatewayCall.readable_iff ?_).symm
    rw [GatewayCall.reads, hdto]
    rfl
  | _ =>
    obtain ⟨dto, hdto⟩ := exists_dto h
    refine ((readUnparsed_refusesOnly _ hdto).map _).congr ?_
    rw [GatewayCall.readable_iff (reads_unparsed rfl hdto)]
    simp [Texts.Parse]

theorem map_error {α β : Type} {x : Except Raised α} {e : Raised} (h : x = .error e) (f : α → β) :
    x.map f = .error e := by
  rw [h]
  rfl

theorem read_of_rejects (h : call.Rejects env envelope.payload) :
    ∃ e, call.read env gateways envelope = .error e := by
  cases call with
  | getPrice symbol =>
    obtain ⟨e, he, _⟩ := (readPrice_reads env gateways.marketData symbol envelope).of_rejected h
    exact ⟨e, map_error he _⟩
  | getOrderbook symbol =>
    obtain ⟨e, he, _⟩ :=
      (readOrderbook_reads env gateways.marketData symbol envelope).of_rejected h
    exact ⟨e, map_error he _⟩
  | getTrades symbol =>
    obtain ⟨e, he, _⟩ := (readTrades_reads env gateways.marketData symbol envelope).of_rejected h
    exact ⟨e, map_error he _⟩
  | getCandles symbol interval count before =>
    obtain ⟨e, he, _⟩ :=
      (readCandles_reads env gateways.marketData symbol envelope interval).of_rejected h
    exact ⟨e, map_error he _⟩
  | _ =>
    obtain ⟨e, he, _⟩ := (readUnparsed_reads env envelope _).of_rejected h
    exact ⟨e, map_error he _⟩

theorem read_convey {record : GatewayRecord} (h : call.read env gateways envelope = .ok record) :
    ∃ texts, call.reads env envelope.payload = some texts ∧
      texts.Convey record.times record.decimals := by
  have haccepted : ¬ call.Rejects env envelope.payload := by
    intro hrejects
    obtain ⟨e, he⟩ : ∃ e, call.read env gateways envelope = .error e := read_of_rejects hrejects
    rw [h] at he
    cases he
  cases call with
  | getPrice symbol =>
    obtain ⟨dto, hdto⟩ := exists_dto haccepted
    obtain ⟨record, hrecord, rfl⟩ := exists_ok_of_map h
    obtain ⟨item, hitem, hconvey⟩ := readPrice_convey hdto hrecord
    refine ⟨item.texts, ?_, hconvey⟩
    rw [GatewayCall.reads, hdto]
    simp [Except.toOption, hitem]
  | getOrderbook symbol =>
    obtain ⟨dto, hdto⟩ := exists_dto haccepted
    obtain ⟨record, hrecord, rfl⟩ := exists_ok_of_map h
    refine ⟨dto.result.texts, ?_, readOrderbook_convey hdto hrecord⟩
    rw [GatewayCall.reads, hdto]
    rfl
  | getTrades symbol =>
    obtain ⟨dto, hdto⟩ := exists_dto haccepted
    obtain ⟨record, hrecord, rfl⟩ := exists_ok_of_map h
    refine ⟨_, ?_, readTrades_convey hdto hrecord⟩
    rw [GatewayCall.reads, hdto]
    rfl
  | getCandles symbol interval count before =>
    obtain ⟨dto, hdto⟩ := exists_dto haccepted
    obtain ⟨record, hrecord, rfl⟩ := exists_ok_of_map h
    refine ⟨_, ?_, readCandles_convey hdto hrecord⟩
    rw [GatewayCall.reads, hdto]
    rfl
  | _ =>
    obtain ⟨dto, hdto⟩ := exists_dto haccepted
    obtain ⟨record, _, rfl⟩ := exists_ok_of_map h
    exact ⟨_, reads_unparsed rfl hdto, .nil, .nil⟩

end Calls

/-- Each call is one `get` and what is made of its envelope. -/
theorem perform_eq_read (env : Env) (gateways : TossGateways) (call : GatewayCall) :
    ∃ path params requiresAccount group, call.perform env gateways =
      ((call.client gateways).get env path params requiresAccount group >>= fun envelope =>
        Program.lift (call.read env gateways envelope)) := by
  cases call with
  | getCandles symbol interval count before =>
    have hcount : gateways.marketData.getCandles env symbol interval count.val before = _ :=
      if_neg (not_not_intro count.property)
    simp only [GatewayCall.perform, hcount]
    exact ⟨_, _, _, _, Program.bind_lift_pure _ _ _⟩
  | _ => exact ⟨_, _, _, _, Program.bind_lift_pure _ _ _⟩

/-! ## Bars that are stored -/

/-- Every bar of the database holds finite numbers. -/
def FiniteDatabase (db : Database) : Prop :=
  ∀ row ∈ db.marketBars.rows, FiniteBar (MarketBarRow.ofRow row)

/-- On every read of bars each filter and plugin that compares them has what it compares: it
returns, or a number on the way to it was too large. -/
def Comparable (db : Database) : Prop :=
  ∀ (order : BarOrder) (instrumentId : Nat) (timeframe : String) (start stop asOf : Instant),
    (∀ filter : ShippedFilter, filter.Compares → filter.HasNumbers → ∀ data : UniverseFilterInput,
      data.recentBars = getBarsAsOf order db.marketBars instrumentId timeframe start stop asOf →
        Decimal.OrOverflow (fun _ => True) (filter.toUniverseFilter.evaluate data)) ∧
    ∀ plugin : ShippedPlugin, plugin.ObservesBars → plugin.HasNumbers → ∀ data : EventScanInput,
      data.bars = getBarsAsOf order db.marketBars instrumentId timeframe start stop asOf →
        Decimal.OrOverflow (fun _ => True) (plugin.toPlugin.detect data)

theorem comparable_of_finite {db : Database} (hdb : FiniteDatabase db) : Comparable db := by
  intro order instrumentId timeframe start stop asOf
  have hbars : FiniteBars (getBarsAsOf order db.marketBars instrumentId timeframe start stop
      asOf) := by
    intro bar hbar
    obtain ⟨row, hcurrent, _, rfl⟩ := (mem_getBarsAsOf_iff ..).mp hbar
    exact hdb row hcurrent.1
  constructor
  · intro filter hcompares hnumbers data hdata
    exact filter.evaluate_orOverflow hcompares hnumbers (hdata ▸ hbars)
  · intro plugin hobserves hnumbers data hdata
    exact plugin.detect_orOverflow hobserves hnumbers (hdata ▸ hbars)

/-- What the ingestor gets of the series. -/
def CandleSeries.delivered (series : CandleSeries) : Ingest.CandleSeries where
  interval := series.interval
  candles := series.candles

/-- Stored among finite bars, the candles leave finite bars that can be compared. -/
def StoresComparable (series : CandleSeries) : Prop :=
  ∀ (ingestor : MarketBarIngestor) (now : Instant) (symbol : String) (interval : CandleInterval)
    (count : Int) (db db' : Database) (result : IngestResult), FiniteDatabase db →
      ingestor.ingestCandles (fun _ _ _ => .ok series.delivered) now symbol interval count db =
        .ok (db', result) → FiniteDatabase db' ∧ Comparable db'

theorem storesComparable_of_finite {series : CandleSeries}
    (h : ∀ d ∈ series.candles.flatMap candleDecimals, d.IsFinite) : StoresComparable series := by
  intro ingestor now symbol interval count db db' result hdb hrun
  have hfinite : FiniteDatabase db' := by
    rw [MarketBarIngestor.ingestCandles_ok] at hrun
    cases hrun
    intro row hrow
    have hvalue := forall_value_appendRevisionRows
      (p := fun value => value.openPrice.IsFinite ∧ value.highPrice.IsFinite ∧
        value.lowPrice.IsFinite ∧ value.closePrice.IsFinite ∧ value.volume.IsFinite)
      ?_ (fun r hr => ?_) row hrow
    · exact ⟨hvalue.1, hvalue.2.1, hvalue.2.2.1, hvalue.2.2.2.1, hvalue.2.2.2.2⟩
    · intro input hinput
      obtain ⟨candle, hcandle, rfl⟩ := List.mem_map.mp hinput
      have hdecimals := fun d hd => h d (List.mem_flatMap.mpr ⟨candle, hcandle, hd⟩)
      simp only [candleDecimals, List.forall_mem_cons] at hdecimals
      exact ⟨hdecimals.1, hdecimals.2.1, hdecimals.2.2.1, hdecimals.2.2.2.1, hdecimals.2.2.2.2.1⟩
    · have hbar := hdb r hr
      exact ⟨hbar.openPrice, hbar.highPrice, hbar.lowPrice, hbar.closePrice, hbar.volume⟩
  exact ⟨hfinite, comparable_of_finite hfinite⟩

/-! ## No non-number -/

/-- The call takes numbers only: those of its record are finite, its timestamps were written
with an offset, candles can be stored and compared, and a payload with a number that is none
is refused as a whole. -/
structure TakesOnlyNumbers (env : Env) (gateways : TossGateways) (call : GatewayCall)
    (envelope : TossResponseEnvelope) : Prop where
  finite : ∀ record, call.read env gateways envelope = .ok record →
    ∀ d ∈ record.decimals, d.IsFinite
  aware : ∀ record, call.read env gateways envelope = .ok record →
    ∃ texts, call.reads env envelope.payload = some texts ∧
      List.Forall₂ WritesInstant texts.timestamps record.times
  comparable : ∀ series, call.read env gateways envelope = .ok (.candles series) →
    StoresComparable series
  refused : (∃ text ∈ call.numbers env envelope.payload, SpellsNonFinite text) →
    ∃ e, call.read env gateways envelope = .error e ∧ e.cls = .app .dataValidationError

section Claim

variable {env : Env} {gateways : TossGateways} {call : GatewayCall}
  {envelope : TossResponseEnvelope}

/-- A text that is read is among the numbers of the payload. -/
theorem mem_numbers_of_reads {payload : PyValue} {texts : Texts}
    (h : call.reads env payload = some texts) {text : String} (htext : text ∈ texts.numbers) :
    text ∈ call.numbers env payload := by
  cases call with
  | getPrice symbol =>
    simp only [GatewayCall.reads, Option.bind_eq_some_iff, Option.map_eq_some_iff] at h
    obtain ⟨dto, hdto, item, hitem, rfl⟩ := h
    rw [GatewayCall.numbers, hdto]
    rw [List.mem_singleton.mp htext]
    exact List.mem_map_of_mem (List.mem_of_mem_head? hitem)
  | _ =>
    simp only [GatewayCall.numbers, h]
    exact htext

theorem finite_of_numbers (hnumbers : ∀ text ∈ call.numbers env envelope.payload,
    ¬ SpellsNonFinite text) {record : GatewayRecord}
    (h : call.read env gateways envelope = .ok record) : ∀ d ∈ record.decimals, d.IsFinite := by
  obtain ⟨texts, htexts, hconvey⟩ := read_convey h
  intro d hd
  obtain ⟨text, htext, hwrites⟩ := hconvey.exists_text hd
  by_contra hfinite
  exact hnumbers text (mem_numbers_of_reads htexts htext) ⟨d, hwrites, hfinite⟩

/-- A call that raises takes nothing. -/
theorem takesOnlyNumbers_of_error {e : Raised}
    (he : call.read env gateways envelope = .error e)
    (hrefused : (∃ text ∈ call.numbers env envelope.payload, SpellsNonFinite text) →
      e.cls = .app .dataValidationError) : TakesOnlyNumbers env gateways call envelope where
  finite record hrecord := by
    rw [he] at hrecord
    cases hrecord
  aware record hrecord := by
    rw [he] at hrecord
    cases hrecord
  comparable series hseries := by
    rw [he] at hseries
    cases hseries
  refused hspells := ⟨e, he, hrefused hspells⟩

theorem takesOnlyNumbers_of_numbers (hnumbers : ∀ text ∈ call.numbers env envelope.payload,
    ¬ SpellsNonFinite text) : TakesOnlyNumbers env gateways call envelope where
  finite _ hrecord := finite_of_numbers hnumbers hrecord
  aware _ hrecord := by
    obtain ⟨texts, htexts, hconvey⟩ := read_convey hrecord
    exact ⟨texts, htexts, hconvey.times⟩
  comparable _ hseries := storesComparable_of_finite (finite_of_numbers hnumbers hseries)
  refused := by
    rintro ⟨text, htext, hspells⟩
    exact absurd hspells (hnumbers text htext)

/-- A call takes numbers only exactly when no price or volume of the payload spells something
else, or another text that it reads makes it refuse the payload. -/
theorem takesOnlyNumbers_iff :
    TakesOnlyNumbers env gateways call envelope ↔
      (∀ text ∈ call.numbers env envelope.payload, ¬ SpellsNonFinite text) ∨
        ¬ call.Readable env envelope.payload := by
  by_cases hrejects : call.Rejects env envelope.payload
  · -- nothing is read of what pydantic refuses
    obtain ⟨hreadable, hnone⟩ := not_readable_of_rejects hrejects
    obtain ⟨e, he⟩ : ∃ e, call.read env gateways envelope = .error e := read_of_rejects hrejects
    refine iff_of_true (takesOnlyNumbers_of_error he ?_) (.inr hreadable)
    rintro ⟨text, htext, _⟩
    rw [hnone] at htext
    cases htext
  · have hrefuses : RefusesOnly _ (call.read env gateways envelope) := read_refusesOnly hrejects
    constructor
    · intro h
      by_contra hboth
      rw [not_or, not_not] at hboth
      obtain ⟨hnumbers, hreadable⟩ := hboth
      obtain ⟨record, hrecord⟩ := hrefuses.ok_iff.mpr hreadable
      refine hnumbers fun text htext hspells => ?_
      obtain ⟨e, he, _⟩ := h.refused ⟨text, htext, hspells⟩
      rw [hrecord] at he
      cases he
    · rintro (hnumbers | hreadable)
      · exact takesOnlyNumbers_of_numbers hnumbers
      · cases hread : call.read env gateways envelope with
        | error e => exact takesOnlyNumbers_of_error hread fun _ => hrefuses.refuses e hread
        | ok record => exact absurd (hrefuses.ok_iff.mp ⟨record, hread⟩) hreadable

end Claim

/-- Each market data call is one `get`, and takes numbers only exactly when no price or volume
of the payload spells something else, or another text that it reads makes it refuse the
payload. -/
theorem market_data_takes_only_numbers (env : Env) (gateways : TossGateways)
    (call : GatewayCall) :
    (∃ path params requiresAccount group, call.perform env gateways =
      ((call.client gateways).get env path params requiresAccount group >>= fun envelope =>
        Program.lift (call.read env gateways envelope))) ∧
    ∀ envelope, TakesOnlyNumbers env gateways call envelope ↔
      (∀ text ∈ call.numbers env envelope.payload, ¬ SpellsNonFinite text) ∨
        ¬ call.Readable env envelope.payload :=
  ⟨perform_eq_read env gateways call, fun _ => takesOnlyNumbers_iff⟩

/-- pydantic on a candle. -/
def validCandle : PyValue → Option CandleDto
  | .dict entries => do
      let text (field : String) : Option String :=
        match entries.lookup field with
        | some (.str text) => some text
        | _ => none
      return {
        timestamp := ← text "timestamp"
        openPrice := ← text "openPrice"
        highPrice := ← text "highPrice"
        lowPrice := ← text "lowPrice"
        closePrice := ← text "closePrice"
        volume := ← text "volume"
        currency := ← text "currency" }
  | _ => none

/-- pydantic on a payload with one list of candles. -/
def validCandles : PyValue → Except ValidationError CandlesResponseDto
  | .dict [("result", .dict [("candles", .list items)])] =>
      match items.mapM validCandle with
      | some candles => .ok { result := { candles, nextBefore := none } }
      | none => .error { reasons := [("result", "missing")], text := "1 validation error" }
  | _ => .error { reasons := [("result", "missing")], text := "1 validation error" }

def candlesEnv : Env :=
  { sampleEnv (fun _ => 0) (fun _ => 0) 3600 (fun _ => .timeout "timed out") with
    candlesDto := validCandles }

/-- A candle with a close of `NaN`. -/
def nanEnvelope : TossResponseEnvelope where
  payload := .dict [("result", .dict [("candles", .list [.dict [
    ("timestamp", .str "2024-01-02T00:00:00+09:00"), ("openPrice", .str "72000"),
    ("highPrice", .str "72500"), ("lowPrice", .str "71000"), ("closePrice", .str "NaN"),
    ("volume", .str "10"), ("currency", .str "KRW")]])])]
  receivedAt := 0

def oneDayCandle : GatewayCall := .getCandles "005930" .oneDay ⟨1, by decide⟩ none

theorem decimals_nanEnvelope :
    (oneDayCandle.read candlesEnv sampleGateways nanEnvelope).toOption.map
      GatewayRecord.decimals = some [.finite false 72000 0, .finite false 72500 0,
        .finite false 71000 0, .nan, .finite false 10 0] := by
  decide +kernel

theorem nan_close_is_taken : ¬ TakesOnlyNumbers candlesEnv sampleGateways oneDayCandle
    nanEnvelope := by
  intro h
  have hdecimals := decimals_nanEnvelope
  cases hread : oneDayCandle.read candlesEnv sampleGateways nanEnvelope with
  | error e =>
    rw [hread] at hdecimals
    cases hdecimals
  | ok record =>
    rw [hread] at hdecimals
    have hfinite := h.finite record hread .nan
    rw [Option.some.inj hdecimals] at hfinite
    exact hfinite (by decide)

end Toss
end QuantPlatform
