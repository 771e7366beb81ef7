import QuantPlatform.Db.Revisions

namespace QuantPlatform
namespace Db

open Relational

structure InstrumentRow where
  id : Nat
  exchange : String
  symbol : String
  name : Option String
  currency : Option String
  source : String
  rawPayload : Option PyValue
  deriving Repr

def InstrumentRow.naturalKey (r : InstrumentRow) : String × String := (r.exchange, r.symbol)

/-- The table and its identity sequence, which is ahead of every id handed out. -/
structure Instruments where
  table : Table InstrumentRow InstrumentRow.naturalKey
  nextId : Nat
  id_lt : ∀ r ∈ table.rows, r.id < nextId
  ids : (table.rows.map InstrumentRow.id).Nodup

namespace Instruments

def empty : Instruments where
  table := Table.empty
  nextId := 1
  id_lt r hr := by cases hr
  ids := List.nodup_nil

/-- `SET updated_at = …` touches no column a reader of the row sees. -/
def touchUpdatedAt : ConflictClause InstrumentRow InstrumentRow.naturalKey where
  set old _ := old
  key_set _ _ := rfl

theorem mem_insert_touch {t : Table InstrumentRow InstrumentRow.naturalKey}
    {new r : InstrumentRow} (h : r ∈ (t.insert touchUpdatedAt new).rows) :
    r ∈ t.rows ∨ r = new := by
  rcases (Table.mem_insert_iff _ _ _ _).mp h with h | h
  · cases hfind : t.find new.naturalKey with
    | none => exact Or.inr (by rw [h, hfind]; rfl)
    | some old =>
        rw [hfind] at h
        exact Or.inl (h ▸ ((Table.find_eq_some_iff _ _ _).mp hfind).1)
  · exact Or.inl h.1

/-- The statement draws an id before it looks for a conflict, so the sequence
moves on even when the instrument exists. -/
def insertRow (instruments : Instruments) (row : InstrumentRow)
    (hid : row.id = instruments.nextId) : Instruments where
  table := instruments.table.insert touchUpdatedAt row
  nextId := instruments.nextId + 1
  id_lt r hr := by
    rcases mem_insert_touch hr with h | h
    · exact Nat.lt_succ_of_lt (instruments.id_lt r h)
    · rw [h, hid]
      exact Nat.lt_succ_self _
  ids := by
    refine List.Nodup.map_on ?_ (Table.rows_nodup _)
    intro a ha b hb hab
    have hold : ∀ r ∈ instruments.table.rows, r.id ≠ row.id := fun r hr he =>
      Nat.ne_of_lt (instruments.id_lt r hr) (he.trans hid)
    rcases mem_insert_touch ha with ha' | ha' <;> rcases mem_insert_touch hb with hb' | hb'
    · exact List.inj_on_of_nodup_map instruments.ids ha' hb' hab
    · exact absurd (hab.trans (congrArg InstrumentRow.id hb')) (hold a ha')
    · exact absurd (hab.symm.trans (congrArg InstrumentRow.id ha')) (hold b hb')
    · exact ha'.trans hb'.symm

/-- `get_or_create` returns the table and the row `RETURNING` gives. -/
def getOrCreate (instruments : Instruments) (exchange symbol source : String)
    (name currency : Option String) (rawPayload : Option PyValue) :
    Instruments × InstrumentRow :=
  let row : InstrumentRow :=
    { id := instruments.nextId, exchange, symbol, name, currency, source, rawPayload }
  (instruments.insertRow row rfl,
    Table.stored touchUpdatedAt (instruments.table.find row.naturalKey) row)

/-- An instrument is created once: asking again returns the row it has. -/
theorem getOrCreate_getOrCreate (instruments : Instruments) (exchange symbol source : String)
    (name currency : Option String) (rawPayload : Option PyValue) :
    let first := instruments.getOrCreate exchange symbol source name currency rawPayload
    (first.1.getOrCreate exchange symbol source name currency rawPayload).2 = first.2 := by
  intro first
  have hfind : first.1.table.find (exchange, symbol) = some first.2 :=
    Table.find_insert_self _ _ _
  show Table.stored touchUpdatedAt (first.1.table.find (exchange, symbol)) _ = first.2
  rw [hfind]
  rfl

end Instruments

/-- `ORDER BY exchange, symbol`, in code point order. -/
def byExchangeAndSymbol (a b : InstrumentRow) : Prop :=
  a.exchange < b.exchange ∨ (a.exchange = b.exchange ∧ a.symbol ≤ b.symbol)

def listAll (order : OrderBy InstrumentRow byExchangeAndSymbol) (instruments : Instruments)
    (exchange : Option String) : List InstrumentRow :=
  order.arrange <| instruments.table.rows.filter fun r =>
    match exchange with
    | none => true
    | some e => decide (r.exchange = e)

/-! ## Market bars -/

/-- The logical key of a bar. -/
structure BarKey where
  instrumentId : Nat
  timeframe : String
  eventTime : Instant
  source : String
  deriving DecidableEq, Repr

structure BarValue where
  openPrice : Decimal
  highPrice : Decimal
  lowPrice : Decimal
  closePrice : Decimal
  volume : Decimal
  currency : Option String
  deriving DecidableEq, Repr

structure MarketBarRow where
  instrumentId : Nat
  timeframe : String
  eventTime : Instant
  availableAt : Instant
  ingestedAt : Instant
  revision : Nat
  openPrice : Decimal
  highPrice : Decimal
  lowPrice : Decimal
  closePrice : Decimal
  volume : Decimal
  currency : Option String
  source : String
  deriving DecidableEq, Repr

abbrev MarketBars := RevisionTable BarKey BarValue
abbrev BarInput := RevisionInput BarKey BarValue

def MarketBarRow.ofRow (r : RevisionRow BarKey BarValue) : MarketBarRow :=
  { instrumentId := r.key.instrumentId
    timeframe := r.key.timeframe
    eventTime := r.key.eventTime
    availableAt := r.availableAt
    ingestedAt := r.ingestedAt
    revision := r.revision
    openPrice := r.value.openPrice
    highPrice := r.value.highPrice
    lowPrice := r.value.lowPrice
    closePrice := r.value.closePrice
    volume := r.value.volume
    currency := r.value.currency
    source := r.key.source }

def upsertBars (bars : MarketBars) (rows : List BarInput) : MarketBars × Nat :=
  appendRevisionRows bars rows

abbrev BarOrder :=
  OrderBy (RevisionRow BarKey BarValue) fun a b => a.key.eventTime ≤ b.key.eventTime

/-- The filters of `get_bars_as_of`, all of them on the logical key. -/
def barFilter (instrumentId : Nat) (timeframe : String) (start stop : Instant)
    (key : BarKey) : Bool :=
  decide (key.instrumentId = instrumentId) && decide (key.timeframe = timeframe) &&
    decide (start ≤ key.eventTime) && decide (key.eventTime ≤ stop)

def getBarsAsOf (order : BarOrder) (bars : MarketBars) (instrumentId : Nat)
    (timeframe : String) (start stop asOf : Instant) : List MarketBarRow :=
  (selectLatestRevisionAsOf order bars
    (fun r => barFilter instrumentId timeframe start stop r.key) asOf).map MarketBarRow.ofRow

theorem barFilter_iff (instrumentId : Nat) (timeframe : String) (start stop : Instant)
    (key : BarKey) :
    barFilter instrumentId timeframe start stop key = true ↔
      key.instrumentId = instrumentId ∧ key.timeframe = timeframe ∧
        start ≤ key.eventTime ∧ key.eventTime ≤ stop := by
  simp [barFilter, and_assoc]

/-- A bar read returns the current revisions of the bars in its window. -/
theorem mem_getBarsAsOf_iff (order : BarOrder) (bars : MarketBars) (instrumentId : Nat)
    (timeframe : String) (start stop asOf : Instant) (row : MarketBarRow) :
    row ∈ getBarsAsOf order bars instrumentId timeframe start stop asOf ↔
      ∃ r, IsCurrent bars asOf r ∧
        barFilter instrumentId timeframe start stop r.key = true ∧
          MarketBarRow.ofRow r = row := by
  unfold getBarsAsOf selectLatestRevisionAsOf
  simp only [List.mem_map, order.mem_arrange_iff, mem_latestRevisions_of_keyFilter, and_assoc]

/-! ## Orderbook snapshots -/

structure SnapshotKey where
  instrumentId : Nat
  eventTime : Instant
  source : String
  deriving DecidableEq, Repr

/-- A price level as the JSON column holds it. -/
abbrev Level := List (String × PyValue)

/-- A snapshot, both as stored and as `get_latest_as_of` returns it. -/
structure OrderBookSnapshotRow where
  instrumentId : Nat
  eventTime : Instant
  availableAt : Instant
  ingestedAt : Instant
  currency : Option String
  asks : List Level
  bids : List Level
  source : String
  deriving Repr

def OrderBookSnapshotRow.naturalKey (r : OrderBookSnapshotRow) : SnapshotKey :=
  { instrumentId := r.instrumentId, eventTime := r.eventTime, source := r.source }

abbrev OrderbookSnapshots := Table OrderBookSnapshotRow OrderBookSnapshotRow.naturalKey

/-- The update columns `currency`, `asks`, `bids`, and `ingested_at`. -/
def updateSnapshot : ConflictClause OrderBookSnapshotRow OrderBookSnapshotRow.naturalKey where
  set old new :=
    { old with
      currency := new.currency, asks := new.asks, bids := new.bids
      ingestedAt := new.ingestedAt }
  key_set _ _ := rfl

def upsertSnapshots (snapshots : OrderbookSnapshots) (rows : List OrderBookSnapshotRow) :
    Except Exn (OrderbookSnapshots × Nat) :=
  upsertEventRows updateSnapshot .update snapshots rows

/-- `ORDER BY event_time DESC`. -/
abbrev SnapshotOrder := OrderBy OrderBookSnapshotRow fun a b => b.eventTime ≤ a.eventTime

/-- The snapshots of an instrument available at `as_of`. -/
def visibleSnapshots (snapshots : OrderbookSnapshots) (instrumentId : Nat) (asOf : Instant) :
    List OrderBookSnapshotRow :=
  snapshots.rows.filter fun r =>
    decide (r.instrumentId = instrumentId) && decide (r.availableAt ≤ asOf)

def getLatestAsOf (order : SnapshotOrder) (snapshots : OrderbookSnapshots) (instrumentId : Nat)
    (asOf : Instant) : Option OrderBookSnapshotRow :=
  (order.arrange (visibleSnapshots snapshots instrumentId asOf)).head?

theorem mem_visibleSnapshots_iff (snapshots : OrderbookSnapshots) (instrumentId : Nat)
    (asOf : Instant) (r : OrderBookSnapshotRow) :
    r ∈ visibleSnapshots snapshots instrumentId asOf ↔
      r ∈ snapshots.rows ∧ r.instrumentId = instrumentId ∧ r.availableAt ≤ asOf := by
  simp [visibleSnapshots]

end Db
end QuantPlatform
