import QuantPlatform.Ingest.Ingestors
import QuantPlatform.Db.PointInTime
import QuantPlatform.Temporal.Rounds

namespace QuantPlatform
namespace Ingest

open Db Relational Temporal

/-- A call of `ingest_candles`, by an ingestor with its upstream, at a reading of its clock. -/
structure CandleRun where
  ingestor : MarketBarIngestor := {}
  getCandles : GetCandles
  clock : Instant
  symbol : String
  interval : CandleInterval
  count : Int

namespace CandleRun

/-- What upstream answers. -/
def answer (run : CandleRun) : Except Exn CandleSeries :=
  run.getCandles run.symbol run.interval run.count

/-- The call in a transaction of its own: rolled back when it raises. -/
def commit (run : CandleRun) (db : Database) : Database :=
  match run.ingestor.ingestCandles run.getCandles run.clock run.symbol run.interval run.count
      db with
  | .ok written => written.1
  | .error _ => db

def after (db : Database) (runs : List CandleRun) : Database :=
  runs.foldl (fun db run => run.commit db) db

/-- The candle that upstream quotes first for a period. -/
def quote (run : CandleRun) (exchange symbol timeframe source : String) (eventTime : Instant) :
    Option Candle :=
  match run.answer with
  | .ok series =>
      if run.ingestor.exchange = exchange ∧ run.symbol = symbol ∧ series.interval = timeframe ∧
          run.ingestor.source = source then
        series.candles.find? fun candle => candle.timestamp = eventTime
      else none
  | .error _ => none

/-- The last quote up to `as_of`, and when it was fetched. -/
def lastQuote (runs : List CandleRun) (exchange symbol timeframe source : String)
    (eventTime asOf : Instant) : Option (Instant × Candle) :=
  (runs.filter fun run => run.clock ≤ asOf).reverse.findSome? fun run =>
    (run.quote exchange symbol timeframe source eventTime).map fun candle => (run.clock, candle)

/-- The rows of a run. -/
def rows (run : CandleRun) (db : Database) : List BarInput :=
  match run.answer with
  | .ok series =>
      run.ingestor.rows (run.ingestor.instrument db.instruments run.symbol).2.id series run.clock
  | .error _ => []

theorem commit_ok {run : CandleRun} {series : CandleSeries} (h : run.answer = .ok series)
    (db : Database) :
    (run.commit db).instruments = (run.ingestor.instrument db.instruments run.symbol).1 ∧
      (run.commit db).marketBars = (upsertBars db.marketBars (run.rows db)).1 := by
  have hanswer : run.getCandles run.symbol run.interval run.count = .ok series := h
  unfold commit rows MarketBarIngestor.ingestCandles
  rw [h, hanswer]
  exact ⟨rfl, rfl⟩

theorem commit_error {run : CandleRun} {e : Exn} (h : run.answer = .error e) (db : Database) :
    run.commit db = db := by
  have hanswer : run.getCandles run.symbol run.interval run.count = .error e := h
  unfold commit MarketBarIngestor.ingestCandles
  rw [hanswer]
  rfl

theorem marketBars_commit (run : CandleRun) (db : Database) :
    (run.commit db).marketBars = (upsertBars db.marketBars (run.rows db)).1 := by
  cases h : run.answer with
  | ok series => exact (commit_ok h db).2
  | error e =>
    have hrows : run.rows db = [] := by
      unfold rows
      rw [h]
    rw [commit_error h, hrows]
    rfl

theorem find_instrument_of_find {instruments : Instruments} {key : String × String}
    {row : InstrumentRow} (h : instruments.table.find key = some row)
    (ingestor : MarketBarIngestor) (symbol : String) :
    (ingestor.instrument instruments symbol).1.table.find key = some row := by
  show (instruments.table.insert Instruments.touchUpdatedAt _).find key = some row
  rw [Table.find_insert]
  split
  · rw [h]
    rfl
  · exact h

theorem find_commit_of_find {db : Database} {key : String × String} {row : InstrumentRow}
    (h : db.instruments.table.find key = some row) (run : CandleRun) :
    (run.commit db).instruments.table.find key = some row := by
  cases hanswer : run.answer with
  | ok series =>
    rw [(commit_ok hanswer db).1]
    exact find_instrument_of_find h run.ingestor run.symbol
  | error e => rwa [commit_error hanswer]

theorem find_after_of_find {db : Database} {key : String × String} {row : InstrumentRow}
    (h : db.instruments.table.find key = some row) (runs : List CandleRun) :
    (after db runs).instruments.table.find key = some row := by
  induction runs generalizing db with
  | nil => exact h
  | cons run rest ih => exact ih (find_commit_of_find h run)

/-- The instrument that a run writes to is there in the end, under its symbol. -/
theorem find_after_instrument {run : CandleRun} {series : CandleSeries}
    (h : run.answer = .ok series) (db : Database) (rest : List CandleRun) :
    (after (run.commit db) rest).instruments.table.find (run.ingestor.exchange, run.symbol) =
      some (run.ingestor.instrument db.instruments run.symbol).2 := by
  refine find_after_of_find ?_ rest
  rw [(commit_ok h db).1]
  exact Table.find_insert_self _ _ _

/-- Two instruments are told apart by their ids as by their symbols. -/
theorem id_eq_iff {instruments : Instruments} {key key' : String × String}
    {row row' : InstrumentRow} (h : instruments.table.find key = some row)
    (h' : instruments.table.find key' = some row') : row.id = row'.id ↔ key = key' := by
  obtain ⟨hmem, hkey⟩ := (Table.find_eq_some_iff ..).mp h
  obtain ⟨hmem', hkey'⟩ := (Table.find_eq_some_iff ..).mp h'
  constructor
  · intro hid
    have hrow : row = row' := List.inj_on_of_nodup_map instruments.ids hmem hmem' hid
    rw [← hkey, ← hkey', hrow]
  · rintro rfl
    rw [h] at h'
    cases h'
    rfl

/-! ## Runs as rounds -/

/-- What the runs say of bars, each at its reading of the clock. -/
def rounds : Database → List CandleRun → List (Round BarKey Instant BarValue)
  | _, [] => []
  | db, run :: rest =>
      { time := run.clock, said := (run.rows db).map fun row => (row.key, row.value) } ::
        rounds (run.commit db) rest

/-- The batches of the runs. -/
def batches : Database → List CandleRun → List (List BarInput)
  | _, [] => []
  | db, run :: rest => run.rows db :: batches (run.commit db) rest

theorem marketBars_after (db : Database) (runs : List CandleRun) :
    (after db runs).marketBars =
      (batches db runs).foldl (fun bars rows => (upsertBars bars rows).1) db.marketBars := by
  induction runs generalizing db with
  | nil => rfl
  | cons run rest ih =>
    rw [batches, List.foldl_cons, ← marketBars_commit]
    exact ih (run.commit db)

theorem availableAt_of_mem_rows {run : CandleRun} {db : Database} {row : BarInput}
    (h : row ∈ run.rows db) : row.availableAt = run.clock := by
  unfold rows at h
  cases hanswer : run.answer with
  | ok series =>
    rw [hanswer] at h
    obtain ⟨candle, _, rfl⟩ := List.mem_map.mp h
    rfl
  | error e =>
    rw [hanswer] at h
    cases h

theorem submittedBars_batches (db : Database) (runs : List CandleRun) :
    submittedBars (batches db runs) = (rounds db runs).flatMap Round.facts := by
  induction runs generalizing db with
  | nil => rfl
  | cons run rest ih =>
    unfold submittedBars at ih ⊢
    rw [batches, rounds, List.flatten_cons, List.map_append, ih, List.flatMap_cons]
    congr 1
    rw [Round.facts, List.map_map]
    refine List.map_congr_left fun row hrow => ?_
    rw [RevisionInput.fact, availableAt_of_mem_rows hrow]
    rfl

theorem time_rounds (db : Database) (runs : List CandleRun) :
    (rounds db runs).map Round.time = runs.map CandleRun.clock := by
  induction runs generalizing db with
  | nil => rfl
  | cons run rest ih => exact congrArg (run.clock :: ·) (ih (run.commit db))

/-- What a run says of a bar is what its upstream quotes, when the instrument of the bar is
the one that the symbol ends up with. -/
theorem value_round {run : CandleRun} {db : Database} {rest : List CandleRun}
    {exchange symbol : String} {row : InstrumentRow}
    (hrow : (after (run.commit db) rest).instruments.table.find (exchange, symbol) = some row)
    (timeframe source : String) (eventTime : Instant) :
    (((run.rows db).map fun row => (row.key, row.value)).find? fun kv =>
        kv.1 = { instrumentId := row.id, timeframe, eventTime, source }).map Prod.snd =
      (run.quote exchange symbol timeframe source eventTime).map MarketBarIngestor.barValue := by
  unfold rows quote
  cases hanswer : run.answer with
  | error e => rfl
  | ok series =>
    have hid := id_eq_iff (find_after_instrument hanswer db rest) hrow
    rw [Prod.mk.injEq] at hid
    dsimp only [MarketBarIngestor.rows, stampedRows]
    rw [List.map_map, List.find?_map, Option.map_map]
    by_cases hsame : run.ingestor.exchange = exchange ∧ run.symbol = symbol ∧
        series.interval = timeframe ∧ run.ingestor.source = source
    · rw [if_pos hsame]
      have hsameId := hid.mpr ⟨hsame.1, hsame.2.1⟩
      refine congrArg (Option.map _) (congrArg (series.candles.find? ·) (funext fun candle => ?_))
      simp [MarketBarIngestor.barKey, hsameId, hsame.2.2.1, hsame.2.2.2]
    · rw [if_neg hsame, List.find?_eq_none.mpr]
      · rfl
      · intro candle _
        simp only [MarketBarIngestor.barKey, Function.comp_apply, BarKey.mk.injEq,
          decide_eq_true_eq, hid]
        exact fun h => hsame ⟨h.1.1, h.1.2, h.2.1, h.2.2.2⟩

/-- A round up to `as_of` with what it says of a bar, and a run with what it quotes of it. -/
theorem lastSaid_rounds {db : Database} {runs : List CandleRun} {exchange symbol : String}
    {row : InstrumentRow}
    (hrow : (after db runs).instruments.table.find (exchange, symbol) = some row)
    (timeframe source : String) (eventTime asOf : Instant) :
    lastSaid (rounds db runs) { instrumentId := row.id, timeframe, eventTime, source } asOf =
      (lastQuote runs exchange symbol timeframe source eventTime asOf).map fun quoted =>
        (quoted.1, MarketBarIngestor.barValue quoted.2) := by
  unfold lastSaid lastQuote
  induction runs generalizing db with
  | nil => rfl
  | cons run rest ih =>
    have hvalue := value_round hrow timeframe source eventTime
    rw [rounds]
    by_cases htime : run.clock ≤ asOf
    · rw [List.filter_cons_of_pos (by simpa using htime),
        List.filter_cons_of_pos (by simpa using htime), List.reverse_cons, List.reverse_cons,
        List.findSome?_append, List.findSome?_append, ih hrow, List.findSome?_singleton,
        List.findSome?_singleton, Option.map_or]
      refine congrArg (Option.or _) ?_
      unfold Round.value?
      rw [hvalue, Option.map_map, Option.map_map]
      rfl
    · rw [List.filter_cons_of_neg (by simpa using htime),
        List.filter_cons_of_neg (by simpa using htime)]
      exact ih hrow

/-- The bars read of an instrument at `as_of` are, period by period and source by source,
the candles quoted last up to then, under the time they were fetched at. -/
theorem bars_as_last_quoted {runs : List CandleRun}
    (hclock : runs.Pairwise fun a b => a.clock < b.clock) {row : InstrumentRow}
    (hrow : row ∈ (after Database.empty runs).instruments.table.rows) (order : BarOrder)
    (timeframe : String) (start stop asOf : Instant) (bar : Fact BarKey Instant BarValue) :
    bar ∈ (getBarsAsOf order (after Database.empty runs).marketBars row.id timeframe start stop
        asOf).map MarketBarRow.fact ↔
      barFilter row.id timeframe start stop bar.subject = true ∧
        ∃ candle, lastQuote runs row.exchange row.symbol timeframe bar.subject.source
            bar.subject.eventTime asOf = some (bar.time, candle) ∧
          MarketBarIngestor.barValue candle = bar.value := by
  have hordered : (rounds Database.empty runs).Pairwise fun a b => a.time < b.time := by
    rw [← List.pairwise_map (f := Round.time), time_rounds, List.pairwise_map]
    exact hclock
  have hbars : (after Database.empty runs).marketBars = barsAfter (batches Database.empty runs) :=
    marketBars_after Database.empty runs
  rw [hbars, fact_mem_getBarsAsOf_iff, submittedBars_batches, seenAt_rounds_iff hordered]
  refine and_congr_right fun hfilter => ?_
  obtain ⟨hid, htimeframe, _⟩ := (barFilter_iff ..).mp hfilter
  have hfind := (Table.mem_rows_iff _ row).mp hrow
  have hlast := lastSaid_rounds hfind timeframe bar.subject.source bar.subject.eventTime asOf
  have hsubject : bar.subject = { instrumentId := row.id, timeframe
                                  eventTime := bar.subject.eventTime
                                  source := bar.subject.source } := by
    rw [← hid, ← htimeframe]
  rw [hsubject, hlast, Option.map_eq_some_iff]
  constructor
  · rintro ⟨⟨time, candle⟩, hquoted, hvalue⟩
    rw [Prod.mk.injEq] at hvalue
    exact ⟨candle, hvalue.1 ▸ hquoted, hvalue.2⟩
  · rintro ⟨candle, hquoted, hvalue⟩
    exact ⟨(bar.time, candle), hquoted, Prod.ext rfl hvalue⟩

/-- A daily candle quoted at 1 and corrected at 2. -/
def quotedDay (closePrice : Int) : CandleSeries where
  interval := "1d"
  candles := [{ timestamp := 0, openPrice := .ofInt 70, highPrice := .ofInt 75
                lowPrice := .ofInt 69, closePrice := .ofInt closePrice, volume := .ofInt 10
                currency := "KRW" }]

def correctedDay : List CandleRun :=
  [{ getCandles := fun _ _ _ => .ok (quotedDay 71), clock := 1, symbol := "005930"
     interval := .oneDay, count := 1 },
    { getCandles := fun _ _ _ => .ok (quotedDay 72), clock := 2, symbol := "005930"
      interval := .oneDay, count := 1 }]

theorem correctedDay_read_at_one : ∃ row ∈ (after Database.empty correctedDay).instruments.table.rows,
    ∀ bar, bar ∈ (getBarsAsOf (OrderBy.byColumn _) (after Database.empty correctedDay).marketBars
        row.id "1d" 0 0 1).map MarketBarRow.fact ↔
      barFilter row.id "1d" 0 0 bar.subject = true ∧
        ∃ candle, lastQuote correctedDay row.exchange row.symbol "1d" bar.subject.source
            bar.subject.eventTime 1 = some (bar.time, candle) ∧
          MarketBarIngestor.barValue candle = bar.value :=
  ⟨_, List.mem_cons_self, bars_as_last_quoted (by decide) List.mem_cons_self _ "1d" 0 0 1⟩

end CandleRun

end Ingest
end QuantPlatform
