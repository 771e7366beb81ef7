/-
Which exceptions leave a gateway call.

A call is meant to return a record or raise an `AppError`.  An exception of another
kind leaves it in five ways, and each of them is an event of the call: `time.sleep`
refuses a delay, the 2xx answer to the call is not JSON or not of the endpoint's
shape, a token's expiry or the limit it is compared with is no datetime, or httpx
cannot build a request.  Without such an event nothing but a record or an
`AppError` comes out, and after the first one always something else.
-/
import QuantPlatform.Toss.Gateway

namespace QuantPlatform
namespace Toss

open QuantPlatform.Core Effects Ingest

/-- Every exception it raises is the application's. -/
def AppErrors {α : Type} (result : Except Raised α) : Prop :=
  ∀ e, result = .error e → e.IsAppError

section AppErrors

variable {α β : Type}

theorem appErrors_ok (a : α) : AppErrors (.ok a) := by
  intro e h
  cases h

theorem AppErrors.bind {x : Except Raised α} {f : α → Except Raised β} (hx : AppErrors x)
    (hf : ∀ a, AppErrors (f a)) : AppErrors (x >>= f) := by
  intro e h
  cases x with
  | ok a => exact hf a e h
  | error e' =>
    have he : e' = e := Except.error.inj h
    exact he ▸ hx e' rfl

theorem AppErrors.mapM {f : α → Except Raised β} (hf : ∀ a, AppErrors (f a)) (xs : List α) :
    AppErrors (xs.mapM f) := by
  induction xs with
  | nil => exact appErrors_ok []
  | cons x xs ih =>
    rw [List.mapM_cons]
    exact (hf x).bind fun y => ih.bind fun ys => appErrors_ok (y :: ys)

theorem appErrors_toDecimal (value field : String) : AppErrors (toDecimal value field) := by
  unfold toDecimal
  split
  · exact appErrors_ok _
  · intro e h
    cases h
    exact Raised.isAppError_of_app rfl

theorem appErrors_parseTimestamp (value field : String) :
    AppErrors (parseTimestamp value field) := by
  unfold parseTimestamp
  split
  · split
    · exact appErrors_ok _
    · intro e h
      cases h
      exact Raised.isAppError_of_app rfl
  · intro e h
    cases h
    exact Raised.isAppError_of_app rfl

/-- A reading raises something else exactly when the payload is rejected. -/
structure Reads (rejected : Prop) (result : Except Raised α) : Prop where
  of_rejected : rejected → ∃ e, result = .error e ∧ ¬ e.IsAppError
  of_accepted : ¬ rejected → AppErrors result

/-- Validation and what is made of the DTO. -/
theorem reads_validated {x : Except ValidationError α} {f : α → Except Raised β}
    (hf : ∀ dto, AppErrors (f dto)) : Reads (∃ exc, x = .error exc) (validated x >>= f) where
  of_rejected hrejected := by
    obtain ⟨exc, rfl⟩ := hrejected
    exact ⟨_, rfl, Raised.not_isAppError_of_other rfl⟩
  of_accepted haccepted := by
    cases x with
    | ok dto => exact hf dto
    | error exc => exact absurd ⟨exc, rfl⟩ haccepted

end AppErrors

section Readings

variable (env : Env) (adapter : MarketDataAdapter) (symbol : String)
  (envelope : TossResponseEnvelope)

theorem readUnparsed_reads (captureRawPayload : Bool) :
    Reads (∃ exc, env.rawEnvelopeDto envelope.payload = .error exc)
      (readUnparsed env captureRawPayload envelope) :=
  reads_validated fun _ => appErrors_ok _

theorem readPrice_reads :
    Reads (∃ exc, env.pricesDto envelope.payload = .error exc)
      (adapter.readPrice env symbol envelope) := by
  refine reads_validated fun dto => ?_
  split
  · intro e h
    cases h
    exact Raised.isAppError_of_app rfl
  · exact (appErrors_parseTimestamp _ _).bind fun _ => (appErrors_toDecimal _ _).bind fun _ =>
      appErrors_ok _

theorem readOrderbook_reads :
    Reads (∃ exc, env.orderbookDto envelope.payload = .error exc)
      (adapter.readOrderbook env symbol envelope) := by
  have hlevel : ∀ level, AppErrors (MarketDataAdapter.level level) := fun level =>
    (appErrors_toDecimal _ _).bind fun _ => (appErrors_toDecimal _ _).bind fun _ => appErrors_ok _
  refine reads_validated fun dto => ?_
  exact (appErrors_parseTimestamp _ _).bind fun _ => (AppErrors.mapM hlevel _).bind fun _ =>
    (AppErrors.mapM hlevel _).bind fun _ => appErrors_ok _

theorem readTrades_reads :
    Reads (∃ exc, env.tradesDto envelope.payload = .error exc)
      (adapter.readTrades env symbol envelope) := by
  refine reads_validated fun dto => AppErrors.mapM (fun item => ?_) _
  exact (appErrors_parseTimestamp _ _).bind fun _ => (appErrors_toDecimal _ _).bind fun _ =>
    (appErrors_toDecimal _ _).bind fun _ => appErrors_ok _

theorem readCandles_reads (interval : CandleInterval) :
    Reads (∃ exc, env.candlesDto envelope.payload = .error exc)
      (adapter.readCandles env symbol interval envelope) := by
  have hcandle : ∀ item, AppErrors (MarketDataAdapter.readCandle item) := fun item =>
    (appErrors_parseTimestamp _ _).bind fun _ => (appErrors_toDecimal _ _).bind fun _ =>
      (appErrors_toDecimal _ _).bind fun _ => (appErrors_toDecimal _ _).bind fun _ =>
      (appErrors_toDecimal _ _).bind fun _ => (appErrors_toDecimal _ _).bind fun _ =>
      appErrors_ok _
  refine reads_validated fun dto => ?_
  exact (AppErrors.mapM hcandle _).bind fun _ => appErrors_ok _

end Readings

/-- A call of one of the adapters; the count of `get_candles` is in its range. -/
inductive GatewayCall
  | getPrice (symbol : String)
  | getOrderbook (symbol : String)
  | getTrades (symbol : String)
  | getCandles (symbol : String) (interval : CandleInterval)
      (count : { count : Int // MarketDataAdapter.minCandleCount ≤ count ∧
        count ≤ MarketDataAdapter.maxCandleCount }) (before : Option String)
  | getPriceLimits (symbol : String)
  | getStocks (params : List (String × String))
  | getAccounts
  | getHoldings
  | getOrders (params : List (String × String))
  | getOrder (orderId : String)
  | getBuyingPower (params : List (String × String))
  | getSellableQuantity (symbol : String)
  | getCommissions (params : List (String × String))

inductive GatewayRecord
  | quote (quote : Quote)
  | orderBook (snapshot : OrderBookSnapshot)
  | trades (ticks : List TradeTick)
  | candles (series : CandleSeries)
  | unparsed (record : UnparsedRecord)

namespace GatewayCall

/-- The call, by the adapter it belongs to. -/
def perform (env : Env) (gateways : TossGateways) : GatewayCall → Action GatewayRecord
  | getPrice symbol => do return .quote (← gateways.marketData.getPrice env symbol)
  | getOrderbook symbol => do return .orderBook (← gateways.marketData.getOrderbook env symbol)
  | getTrades symbol => do return .trades (← gateways.marketData.getTrades env symbol)
  | getCandles symbol interval count before => do
      return .candles (← gateways.marketData.getCandles env symbol interval count.val before)
  | getPriceLimits symbol => do
      return .unparsed (← gateways.marketData.getPriceLimits env symbol)
  | getStocks params => do return .unparsed (← gateways.marketData.getStocks env params)
  | getAccounts => do return .unparsed (← gateways.portfolio.getAccounts env)
  | getHoldings => do return .unparsed (← gateways.portfolio.getHoldings env)
  | getOrders params => do return .unparsed (← gateways.portfolio.getOrders env params)
  | getOrder orderId => do return .unparsed (← gateways.portfolio.getOrder env orderId)
  | getBuyingPower params => do return .unparsed (← gateways.portfolio.getBuyingPower env params)
  | getSellableQuantity symbol => do
      return .unparsed (← gateways.portfolio.getSellableQuantity env symbol)
  | getCommissions params => do return .unparsed (← gateways.portfolio.getCommissions env params)

/-- The client of its adapter. -/
def client (gateways : TossGateways) : GatewayCall → TossRestClient
  | getPrice _ | getOrderbook _ | getTrades _ | getCandles _ _ _ _ | getPriceLimits _
  | getStocks _ => gateways.marketData.client
  | _ => gateways.portfolio.client

/-- What the call makes of its envelope. -/
def read (env : Env) (gateways : TossGateways) (call : GatewayCall)
    (envelope : TossResponseEnvelope) : Except Raised GatewayRecord :=
  match call with
  | getPrice symbol => (gateways.marketData.readPrice env symbol envelope).map .quote
  | getOrderbook symbol => (gateways.marketData.readOrderbook env symbol envelope).map .orderBook
  | getTrades symbol => (gateways.marketData.readTrades env symbol envelope).map .trades
  | getCandles symbol interval _ _ =>
      (gateways.marketData.readCandles env symbol interval envelope).map .candles
  | getPriceLimits _ | getStocks _ =>
      (readUnparsed env gateways.marketData.captureRawPayload envelope).map .unparsed
  | _ => (readUnparsed env gateways.portfolio.captureRawPayload envelope).map .unparsed

/-- The payloads pydantic refuses for the call's endpoint. -/
def Rejects (env : Env) (call : GatewayCall) (payload : PyValue) : Prop :=
  match call with
  | getPrice _ => ∃ exc, env.pricesDto payload = .error exc
  | getOrderbook _ => ∃ exc, env.orderbookDto payload = .error exc
  | getTrades _ => ∃ exc, env.tradesDto payload = .error exc
  | getCandles _ _ _ _ => ∃ exc, env.candlesDto payload = .error exc
  | _ => ∃ exc, env.rawEnvelopeDto payload = .error exc

end GatewayCall

/-! ## Events that let something else out -/

/-- Event `n` makes a call raise something else than an application error.  A 2xx
answer to the call itself offends when no payload of the endpoint is in it, unless
the transport retries its status. -/
def Offends (env : Env) (client : TossRestClient) (Rejects : PyValue → Prop) (n : Nat) :
    Event → Prop
  | .slept seconds => sleepError seconds ≠ none
  | .checked token =>
      ∃ exn, token.expiresAt.minusSeconds client.oauth.expiryLeewaySeconds = .error exn
  | .issued parsed => ∃ exn, (env.now n).plusSeconds parsed.expiresIn = .error exn
  | .refused _ _ => True
  | .sent errand _ (.response response) =>
      errand.party = .rest ∧ isSuccess response ∧
        response.statusCode ∉ client.http.policy.retryStatusCodes ∧
        ∀ payload, env.json response.content = some payload → Rejects payload
  | _ => False

/-- No event from the `start`-th on offends. -/
def Clean (env : Env) (client : TossRestClient) (Rejects : PyValue → Prop) (start : Nat)
    (log : List Event) : Prop :=
  ∀ n e, start ≤ n → log[n]? = some e → ¬ Offends env client Rejects n e

section Clean

variable {env : Env} {client : TossRestClient} {Rejects : PyValue → Prop} {start : Nat}
  {log : List Event} {e : Event}

theorem clean_of_length_le (h : log.length ≤ start) : Clean env client Rejects start log := by
  intro n e hn he
  have hlt := (List.getElem?_eq_some_iff.mp he).1
  omega

theorem clean_append_iff (hstart : start ≤ log.length) :
    Clean env client Rejects start (log ++ [e]) ↔
      Clean env client Rejects start log ∧ ¬ Offends env client Rejects log.length e := by
  constructor
  · intro h
    refine ⟨fun n e' hn he' => h n e' hn ?_, h log.length e hstart ?_⟩
    · rw [List.getElem?_append_left (List.getElem?_eq_some_iff.mp he').1]
      exact he'
    · simp
  · intro h n e' hn he'
    rcases Nat.lt_or_ge n log.length with hlt | hge
    · rw [List.getElem?_append_left hlt] at he'
      exact h.1 n e' hn he'
    · have hend : n = log.length := by
        have hlt := (List.getElem?_eq_some_iff.mp he').1
        rw [List.length_append, List.length_singleton] at hlt
        omega
      subst hend
      simp only [List.getElem?_append_right (Nat.le_refl _), Nat.sub_self,
        List.getElem?_cons_zero, Option.some.injEq] at he'
      exact he' ▸ h.2

end Clean

/-! ## What comes out of each part -/

section Programs

variable (env : Env) (client : TossRestClient) (Rejects : PyValue → Prop) (start : Nat)

/-- The call goes on: nothing has offended since it began. -/
structure Ongoing (log : List Event) : Prop where
  started : start ≤ log.length
  clean : Clean env client Rejects start log

/-- What is raised is the application's unless something offended. -/
def Judged (e : Raised) (s : State) : Prop :=
  e.IsAppError ↔ Clean env client Rejects start s.log

/-- The last event is a request of the errand with its outcome. -/
def Heard (errand : Errand) (outcome : Outcome) (s : State) : Prop :=
  ∃ log request, Ongoing env client Rejects start log ∧
    s.log = log ++ [.sent errand request outcome]

variable {env client Rejects start}

theorem Ongoing.logged {log : List Event} {e : Event}
    (h : Ongoing env client Rejects start log)
    (hfine : ¬ Offends env client Rejects log.length e) :
    Ongoing env client Rejects start (log ++ [e]) where
  started := by
    rw [List.length_append]
    exact Nat.le_add_right_of_le h.started
  clean := (clean_append_iff h.started).mpr ⟨h.clean, hfine⟩

theorem judged_of_appError {s : State} {e : Raised} (h : Ongoing env client Rejects start s.log)
    (happ : e.IsAppError) : Judged env client Rejects start e s :=
  iff_of_true happ h.clean

theorem judged_of_offends {log : List Event} {s : State} {event : Event} {e : Raised} {exn : Exn}
    (h : Ongoing env client Rejects start log) (hlog : s.log = log ++ [event])
    (hoffends : Offends env client Rejects log.length event) (hother : e.cls = .other exn) :
    Judged env client Rejects start e s := by
  refine iff_of_false (Raised.not_isAppError_of_other hother) fun hclean => ?_
  rw [hlog] at hclean
  exact ((clean_append_iff h.started).mp hclean).2 hoffends

theorem sleep_judged (seconds : PyFloat) :
    Program.Triple (fun s => Ongoing env client Rejects start s.log) (sleep seconds)
      (fun _ s => Ongoing env client Rejects start s.log) (Judged env client Rejects start) := by
  refine triple_sleep (fun hok s hs => hs.logged fun hoffends => hoffends hok) ?_
  intro error herror s hs
  refine judged_of_offends hs rfl ?_ rfl
  show sleepError seconds ≠ none
  rw [herror]
  exact Option.some_ne_none error

theorem wait_judged (throttle : GroupThrottle) (party : Party) (group : RateLimitGroup) :
    Program.Triple (fun s => Ongoing env client Rejects start s.log)
      (throttle.wait env party group)
      (fun _ s => Ongoing env client Rejects start s.log) (Judged env client Rejects start) :=
  throttle.wait_keeps party group (fun _ hs => hs.logged id) (fun _ hs => hs.logged id)
    (fun _ _ hs => hs) sleep_judged

/-- An attempt that failed was no success of the call. -/
theorem Heard.ongoing_of_failed {errand : Errand} {http : BaseApiClient} {url : String}
    {outcome : Outcome} {e : Raised} {s : State} (hhttp : errand.party = .rest → http = client.http)
    (h : Heard env client Rejects start errand outcome s)
    (hfailed : http.judge url outcome = .error e) :
    Ongoing env client Rejects start s.log := by
  obtain ⟨log, request, hongoing, hlog⟩ := h
  have hretried := (BaseApiClient.judge_error hfailed).2
  rw [hlog]
  cases outcome with
  | timeout text => exact hongoing.logged id
  | httpError text => exact hongoing.logged id
  | response response =>
    refine hongoing.logged fun hoffends => hoffends.2.2.1 ?_
    rw [← hhttp hoffends.1]
    exact hretried response rfl

/-- An answer that is no success offends nobody, and one to a token request never does. -/
theorem Heard.ongoing_of_answer {errand : Errand} {response : Response} {s : State}
    (h : Heard env client Rejects start errand (.response response) s)
    (hfine : errand.party = .rest → ¬ isSuccess response) :
    Ongoing env client Rejects start s.log := by
  obtain ⟨log, request, hongoing, hlog⟩ := h
  rw [hlog]
  exact hongoing.logged fun hoffends => hfine hoffends.1 hoffends.2.1

variable (env client Rejects start) in
theorem request_judged (errand : Errand) (http : BaseApiClient)
    (hhttp : errand.party = .rest → http = client.http) (method path : String)
    (params : Option (List (String × PyValue))) (headers : List (String × String))
    (data : Option (List (String × String))) :
    Program.Triple (fun s => Ongoing env client Rejects start s.log)
      (http.request env errand method path params headers data)
      (fun response s => Heard env client Rejects start errand (.response response) s ∧
        response.statusCode ∉ http.policy.retryStatusCodes)
      (Judged env client Rejects start) := by
  refine BaseApiClient.triple_request (Heard env client Rejects start errand) ?_ ?_ ?_ ?_
  · intro req _ _
    refine triple_transmit (fun _ s hs => ⟨s.log, req, hs, rfl⟩) fun error _ s hs => ?_
    exact judged_of_offends hs rfl trivial rfl
  · intro outcome response hreturned s hs
    obtain ⟨rfl, hkept⟩ := BaseApiClient.judge_eq_ok_iff.mp hreturned
    exact ⟨hs, hkept⟩
  · intro outcome e hfailed s hs
    exact judged_of_appError (hs.ongoing_of_failed hhttp hfailed)
      (BaseApiClient.judge_error hfailed).1
  · intro outcome e attempt hfailed _
    refine Program.Triple.conseq (sleep_judged _) ?_ (fun _ _ hs => hs) fun _ _ hs => hs
    exact fun s hs => hs.ongoing_of_failed hhttp hfailed

theorem sendWithStatusRetry_judged (errand : Errand) {http : BaseApiClient} (retry : StatusRetry)
    {send : Action Response}
    (hsend : Program.Triple (fun s => Ongoing env client Rejects start s.log) send
      (fun response s => Heard env client Rejects start errand (.response response) s ∧
        response.statusCode ∉ http.policy.retryStatusCodes)
      (Judged env client Rejects start)) :
    Program.Triple (fun s => Ongoing env client Rejects start s.log)
      (retry.sendWithStatusRetry send)
      (fun response s => Heard env client Rejects start errand (.response response) s ∧
        response.statusCode ∉ http.policy.retryStatusCodes)
      (Judged env client Rejects start) := by
  refine StatusRetry.triple_sendWithStatusRetry _ hsend (fun _ _ hs => hs) ?_
  intro response attempt hretryable _
  refine Program.Triple.conseq (sleep_judged _) ?_ (fun _ _ hs => hs) fun _ _ hs => hs
  exact fun s hs => hs.1.ongoing_of_answer fun _ => not_isSuccess_of_retryable hretryable

/-- A clock read whose reading a datetime is computed from: the event offends when
the computation fails. -/
theorem dated_judged {β : Type} {event : Event} {f : Instant → Except Exn Instant}
    {k : Instant → Instant → Action β} {Q : β → State → Prop}
    (hoffends : ∀ n, Offends env client Rejects n event ↔ ∃ exn, f (env.now n) = .error exn)
    (hk : ∀ now t, Program.Triple (fun s => Ongoing env client Rejects start s.log) (k now t) Q
      (Judged env client Rejects start)) :
    Program.Triple (fun s => Ongoing env client Rejects start s.log)
      (do
        let now ← readClock env event
        let t ← dated (f now)
        k now t)
      Q (Judged env client Rejects start) := by
  refine Program.triple_bind (fun now s => ∃ log, Ongoing env client Rejects start log ∧
    s.log = log ++ [event] ∧ now = env.now log.length) ?_ fun now => ?_
  · exact triple_readClock fun s hs => ⟨s.log, hs, rfl, rfl⟩
  refine Program.triple_bind (fun _ s => Ongoing env client Rejects start s.log)
    (triple_dated ?_ ?_) fun t => hk now t
  · intro t ht s hs
    obtain ⟨log, hongoing, hlog, rfl⟩ := hs
    rw [hlog]
    refine hongoing.logged fun hbad => ?_
    obtain ⟨exn, hexn⟩ := (hoffends _).mp hbad
    rw [ht] at hexn
    cases hexn
  · intro exn hexn s hs
    obtain ⟨log, hongoing, hlog, rfl⟩ := hs
    exact judged_of_offends hongoing hlog ((hoffends _).mpr ⟨exn, hexn⟩) rfl

/-- A computation that raises nothing but application errors. -/
theorem lift_judged {α : Type} {x : Except Raised α} (hx : AppErrors x) :
    Program.Triple (fun s => Ongoing env client Rejects start s.log) (Program.lift x)
      (fun _ s => Ongoing env client Rejects start s.log) (Judged env client Rejects start) :=
  Program.triple_lift (fun _ _ _ hs => hs) fun e he _ hs => judged_of_appError hs (hx e he)

theorem fetchToken_judged :
    Program.Triple (fun s => Ongoing env client Rejects start s.log) (client.oauth.fetchToken env)
      (fun _ s => Ongoing env client Rejects start s.log) (Judged env client Rejects start) := by
  refine Program.triple_bind _ (wait_judged _ _ _) fun _ => ?_
  refine Program.triple_bind (fun _ s => Ongoing env client Rejects start s.log) ?_
    fun response => ?_
  · have hsend := request_judged env client Rejects start TossOAuthClient.errand client.oauth.http
      (fun hrest => nomatch hrest)
    refine Program.Triple.conseq (sendWithStatusRetry_judged _ client.oauth.retry
      (hsend _ _ _ _ _)) (fun _ hs => hs) ?_ (fun _ _ hs => hs)
    exact fun response s hs => hs.1.ongoing_of_answer fun hrest => nomatch hrest
  refine Program.triple_bind _ (lift_judged fun e he => (raiseForStatus_error he).1) fun _ => ?_
  refine Program.triple_bind _ (lift_judged fun e he => parseToken_error he) fun parsed => ?_
  exact dated_judged (fun n => Iff.rfl) fun now t => Program.triple_pure fun s hs => hs

theorem validToken_judged :
    Program.Triple (fun s => Ongoing env client Rejects start s.log) (client.oauth.validToken env)
      (fun _ s => Ongoing env client Rejects start s.log) (Judged env client Rejects start) := by
  refine TossOAuthClient.triple_validToken fetchToken_judged (fun _ _ hs => hs) fun token => ?_
  exact dated_judged (fun n => Iff.rfl) fun now limit =>
    Program.triple_pure fun s hs => ⟨hs, fun _ => hs⟩

variable (env client Rejects start) in
/-- The last event is an answer to the call itself, with a status that is not retried. -/
def Answered (response : Response) (s : State) : Prop :=
  ∃ errand, errand.party = .rest ∧
    Heard env client Rejects start errand (.response response) s ∧
    response.statusCode ∉ client.http.policy.retryStatusCodes

theorem Answered.ongoing {response : Response} {s : State}
    (h : Answered env client Rejects start response s) (hfailed : ¬ isSuccess response) :
    Ongoing env client Rejects start s.log := by
  obtain ⟨errand, _, hheard, _⟩ := h
  exact hheard.ongoing_of_answer fun _ => hfailed

theorem send_judged (path : String) (params : Option (List (String × PyValue)))
    {requiresAccount : Bool} (haccount : ¬ (requiresAccount = true ∧ client.accountSeq = none))
    (group : RateLimitGroup) :
    Program.Triple (fun s => Ongoing env client Rejects start s.log)
      (client.send env path params requiresAccount group)
      (Answered env client Rejects start) (Judged env client Rejects start) := by
  refine Program.triple_bind _ (wait_judged _ _ _) fun _ => ?_
  refine Program.triple_bind _ validToken_judged fun token => ?_
  refine Program.triple_bind _ (TossRestClient.accountHeader_keeps ?_) fun account => ?_
  · exact fun hnone => absurd hnone haccount
  have hsend := request_judged env client Rejects start
    { party := .rest, group, token := some token } client.http (fun _ => rfl)
  refine Program.Triple.conseq (sendWithStatusRetry_judged _ client.retry
    (hsend _ _ _ _ _)) (fun _ hs => hs) ?_ (fun _ _ hs => hs)
  exact fun response s hs => ⟨_, rfl, hs⟩

theorem resend_judged (path : String) (params : Option (List (String × PyValue)))
    {requiresAccount : Bool} (haccount : ¬ (requiresAccount = true ∧ client.accountSeq = none))
    (group : RateLimitGroup) (response : Response) :
    Program.Triple (Answered env client Rejects start response)
      (client.resend env path params requiresAccount group response)
      (Answered env client Rejects start) (Judged env client Rejects start) := by
  refine Program.triple_ite (fun h401 => ?_) fun _ => Program.triple_pure fun s hs => hs
  refine Program.triple_bind (fun _ s => Ongoing env client Rejects start s.log) ?_
    fun _ => send_judged path params haccount group
  refine Program.triple_modify fun s hs => hs.ongoing fun hsuccess => ?_
  have hlt := hsuccess.2
  omega

variable (env start) in
/-- The envelope holds the payload of a 2xx answer received since. -/
def FromResponse (log : List Event) (envelope : TossResponseEnvelope) : Prop :=
  ∃ n errand request response, start ≤ n ∧
    log[n]? = some (.sent errand request (.response response)) ∧ errand.party = .rest ∧
    isSuccess response ∧ env.json response.content = some envelope.payload

theorem envelope_judged (response : Response) :
    Program.Triple
      (fun s => isSuccess response ∧ Answered env client Rejects start response s)
      (TossRestClient.envelope env response)
      (fun envelope s => (Clean env client Rejects start s.log ↔ ¬ Rejects envelope.payload) ∧
        FromResponse env start s.log envelope)
      (Judged env client Rejects start) := by
  refine Program.triple_of_pure fun hsuccess => ?_
  unfold TossRestClient.envelope
  cases hjson : env.json response.content with
  | none =>
    refine triple_raiseOther fun s hs => ?_
    obtain ⟨errand, hrest, ⟨log, request, hongoing, hlog⟩, hkept⟩ := hs
    refine judged_of_offends hongoing hlog ⟨hrest, hsuccess, hkept, fun payload hpayload => ?_⟩ rfl
    rw [hjson] at hpayload
    cases hpayload
  | some payload =>
    refine Program.triple_bind (fun _ s => ∃ log errand request,
      Ongoing env client Rejects start log ∧ errand.party = .rest ∧
      response.statusCode ∉ client.http.policy.retryStatusCodes ∧
      s.log = log ++ [.sent errand request (.response response)] ++ [.received response]) ?_
      fun receivedAt => ?_
    · refine triple_readClock fun s hs => ?_
      obtain ⟨errand, hrest, ⟨log, request, hongoing, hlog⟩, hkept⟩ := hs
      exact ⟨log, errand, request, hongoing, hrest, hkept, by rw [State.logged_log, hlog]⟩
    · refine Program.triple_pure fun s hs => ?_
      obtain ⟨log, errand, request, hongoing, hrest, hkept, hlog⟩ := hs
      constructor
      · rw [hlog, clean_append_iff (by
            rw [List.length_append]
            exact Nat.le_add_right_of_le hongoing.started),
          clean_append_iff hongoing.started]
        constructor
        · intro hclean hrejects
          refine hclean.1.2 ⟨hrest, hsuccess, hkept, fun payload' hpayload' => ?_⟩
          rw [hjson] at hpayload'
          exact Option.some.inj hpayload' ▸ hrejects
        · intro haccepts
          exact ⟨⟨hongoing.clean, fun hoffends => haccepts (hoffends.2.2.2 payload hjson)⟩, id⟩
      · refine ⟨log.length, errand, request, response, hongoing.started, ?_, hrest, hsuccess, hjson⟩
        rw [hlog, List.append_assoc, List.getElem?_append_right (Nat.le_refl _), Nat.sub_self]
        rfl

theorem get_judged (path : String) (params : Option (List (String × PyValue)))
    (requiresAccount : Bool) (group : Option RateLimitGroup) :
    Program.Triple (fun s => Ongoing env client Rejects start s.log)
      (client.get env path params requiresAccount group)
      (fun envelope s => (Clean env client Rejects start s.log ↔ ¬ Rejects envelope.payload) ∧
        FromResponse env start s.log envelope)
      (Judged env client Rejects start) := by
  refine Program.triple_ite (fun _ => ?_) fun haccount => ?_
  · exact Program.triple_raise fun s hs => judged_of_appError hs (Raised.isAppError_of_app rfl)
  refine Program.triple_bind _ (send_judged path params haccount _) fun first => ?_
  refine Program.triple_bind _ (resend_judged path params haccount _ first) fun response => ?_
  refine Program.triple_bind (fun _ s => isSuccess response ∧
    Answered env client Rejects start response s) (Program.triple_lift ?_ ?_)
    fun _ => envelope_judged response
  · exact fun _ hok s hs => ⟨raiseForStatus_eq_ok_iff.mp hok, hs⟩
  · intro e he s hs
    refine judged_of_appError (hs.ongoing fun hsuccess => ?_) (raiseForStatus_error he).1
    rw [raiseForStatus_eq_ok_iff.mpr hsuccess] at he
    cases he

/-- A `get` and the reading of its envelope. -/
theorem reading_judged {α : Type} (path : String) (params : Option (List (String × PyValue)))
    (requiresAccount : Bool) (group : Option RateLimitGroup)
    {read : TossResponseEnvelope → Except Raised α}
    (hreads : ∀ envelope, Reads (Rejects envelope.payload) (read envelope)) :
    Program.Triple (fun s => Ongoing env client Rejects start s.log)
      (do
        let envelope ← client.get env path params requiresAccount group
        Program.lift (read envelope))
      (fun a s => Clean env client Rejects start s.log ∧
        ∃ envelope, FromResponse env start s.log envelope ∧ read envelope = .ok a)
      (Judged env client Rejects start) := by
  refine Program.triple_bind _ (get_judged path params requiresAccount group) fun envelope => ?_
  refine Program.triple_lift ?_ ?_
  · intro a ha s hs
    refine ⟨hs.1.mpr fun hrejects => ?_, envelope, hs.2, ha⟩
    obtain ⟨e, he, _⟩ := (hreads envelope).of_rejected hrejects
    rw [ha] at he
    cases he
  · intro e he s hs
    by_cases hrejects : Rejects envelope.payload
    · obtain ⟨e', he', hother⟩ := (hreads envelope).of_rejected hrejects
      rw [he] at he'
      cases he'
      exact iff_of_false hother fun hclean => hs.1.mp hclean hrejects
    · exact iff_of_true ((hreads envelope).of_accepted hrejects e he) (hs.1.mpr hrejects)

/-- A call that is a `get` and the reading of its envelope, and what is made of the
record. -/
theorem call_judged {α : Type} {wrap : α → GatewayRecord} {path : String}
    {params : Option (List (String × PyValue))} {requiresAccount : Bool}
    {group : Option RateLimitGroup} {read : TossResponseEnvelope → Except Raised α}
    {readRecord : TossResponseEnvelope → Except Raised GatewayRecord}
    (hreads : ∀ envelope, Reads (Rejects envelope.payload) (read envelope))
    (hrecord : ∀ envelope, readRecord envelope = (read envelope).map wrap) :
    Program.Triple (fun s => Ongoing env client Rejects start s.log)
      (do
        let a ← (do
          let envelope ← client.get env path params requiresAccount group
          Program.lift (read envelope) : Action α)
        return wrap a)
      (fun record s => Clean env client Rejects start s.log ∧
        ∃ envelope, FromResponse env start s.log envelope ∧ readRecord envelope = .ok record)
      (Judged env client Rejects start) := by
  refine Program.triple_bind _ (reading_judged path params requiresAccount group hreads)
    fun a => ?_
  refine Program.triple_pure fun s hs => ?_
  obtain ⟨hclean, envelope, hfrom, hread⟩ := hs
  refine ⟨hclean, envelope, hfrom, ?_⟩
  rw [hrecord envelope, hread]
  rfl

end Programs

/-! ## The calls, judged -/

section Calls

variable (env : Env) (gateways : TossGateways)

theorem perform_judged (call : GatewayCall) (start : Nat) :
    Program.Triple
      (fun s => Ongoing env (call.client gateways) (call.Rejects env) start s.log)
      (call.perform env gateways)
      (fun record s => Clean env (call.client gateways) (call.Rejects env) start s.log ∧
        ∃ envelope, FromResponse env start s.log envelope ∧
          call.read env gateways envelope = .ok record)
      (Judged env (call.client gateways) (call.Rejects env) start) := by
  have hmarket := fun envelope =>
    readUnparsed_reads env envelope gateways.marketData.captureRawPayload
  have hportfolio := fun envelope =>
    readUnparsed_reads env envelope gateways.portfolio.captureRawPayload
  cases call with
  | getPrice symbol =>
    exact call_judged (readPrice_reads env gateways.marketData symbol) fun _ => rfl
  | getOrderbook symbol =>
    exact call_judged (readOrderbook_reads env gateways.marketData symbol) fun _ => rfl
  | getTrades symbol =>
    exact call_judged (readTrades_reads env gateways.marketData symbol) fun _ => rfl
  | getCandles symbol interval count before =>
    have hcount : gateways.marketData.getCandles env symbol interval count.val before = _ :=
      if_neg (not_not_intro count.property)
    simp only [GatewayCall.perform, hcount]
    exact call_judged (fun envelope =>
      readCandles_reads env gateways.marketData symbol envelope interval) fun _ => rfl
  | getPriceLimits symbol => exact call_judged hmarket fun _ => rfl
  | getStocks params => exact call_judged hmarket fun _ => rfl
  | getAccounts => exact call_judged hportfolio fun _ => rfl
  | getHoldings => exact call_judged hportfolio fun _ => rfl
  | getOrders params => exact call_judged hportfolio fun _ => rfl
  | getOrder orderId => exact call_judged hportfolio fun _ => rfl
  | getBuyingPower params => exact call_judged hportfolio fun _ => rfl
  | getSellableQuantity symbol => exact call_judged hportfolio fun _ => rfl
  | getCommissions params => exact call_judged hportfolio fun _ => rfl

/-- The call returns a record made of a 2xx answer to it, or raises an `AppError`. -/
def FailsOnlyWithAppErrors (call : GatewayCall) (s : State) : Prop :=
  (∃ record envelope, (call.perform env gateways s).1 = .ok record ∧
    FromResponse env s.log.length (call.perform env gateways s).2.log envelope ∧
    call.read env gateways envelope = .ok record) ∨
  ∃ e, (call.perform env gateways s).1 = .error e ∧ e.IsAppError

/-- A call fails only with application errors exactly when none of its events offends. -/
theorem failsOnlyWithAppErrors_iff (call : GatewayCall) (s : State) :
    FailsOnlyWithAppErrors env gateways call s ↔
      Clean env (call.client gateways) (call.Rejects env) s.log.length
        (call.perform env gateways s).2.log := by
  have hstart : Ongoing env (call.client gateways) (call.Rejects env) s.log.length s.log :=
    ⟨Nat.le_refl _, clean_of_length_le (Nat.le_refl _)⟩
  have hjudged := perform_judged env gateways call s.log.length
  unfold FailsOnlyWithAppErrors
  cases hrun : call.perform env gateways s with
  | mk result s' =>
    cases result with
    | ok record =>
      obtain ⟨hclean, envelope, hfrom, hread⟩ := hjudged.ok hstart hrun
      exact iff_of_true (Or.inl ⟨record, envelope, rfl, hfrom, hread⟩) hclean
    | error e =>
      have hiff : e.IsAppError ↔ _ := hjudged.error hstart hrun
      rw [← hiff]
      constructor
      · rintro (⟨record, envelope, hok, _⟩ | ⟨e', he, happ⟩)
        · cases hok
        · cases he
          exact happ
      · exact fun happ => Or.inr ⟨e, rfl, happ⟩

end Calls

/-- The first answer to the data request is a 429 that asks for a negative wait. -/
def negativeWaitEnv : Env :=
  sampleEnv (fun _ => 0) (fun _ => 0) 3600 fun n =>
    if n = 2 then answered 200 [] (tokenBody 3600)
    else answered 429 [("Retry-After", "-1")] []

def sampleGateways : TossGateways where
  marketData := { client := sampleClient }
  portfolio := { client := sampleClient }

/-- The class of the exception raised, if one is. -/
def raisedClass {α : Type} : Except Raised α → Option ExceptionClass
  | .ok _ => none
  | .error e => some e.cls

theorem negative_wait_escapes :
    ¬ ∀ (env : Env) (gateways : TossGateways) (call : GatewayCall) (s : State),
        FailsOnlyWithAppErrors env gateways call s := by
  intro hall
  have hclass : raisedClass (GatewayCall.getAccounts.perform negativeWaitEnv sampleGateways
      State.fresh).1 = some (.other .valueError) := by
    decide +kernel
  rcases hall negativeWaitEnv sampleGateways .getAccounts State.fresh with
    ⟨record, _, hok, _⟩ | ⟨e, he, happ⟩
  · rw [hok] at hclass
    cases hclass
  · rw [he] at hclass
    exact Raised.not_isAppError_of_other (Option.some.inj hclass) happ

end Toss
end QuantPlatform
