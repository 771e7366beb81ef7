/-
The world the Toss client acts in.

Everything the client does that the outside can see is an event, and the log keeps
the events in order: a clock read, a `time.sleep`, a request.  The clocks are
arbitrary functions of the number of events so far, so any amount of time can pass
between two of them, and so is what becomes of a request.  Beside these the
surroundings are the functions of httpx and pydantic that the client relies on.

A request is noted with its errand: the client it was sent for, the rate-limit
group it was let through in, and the token it carries.  None of that is on the
wire except the token's value.
-/
import QuantPlatform.Effects.Log
import QuantPlatform.Effects.Program
import QuantPlatform.Toss.Records

namespace QuantPlatform
namespace Toss

open QuantPlatform.Core Effects

inductive RateLimitGroup
  | auth
  | account
  | asset
  | stock
  deriving DecidableEq, Repr

structure AccessToken where
  value : String
  expiresAt : Instant
  deriving DecidableEq, Repr

structure ParsedToken where
  accessToken : String
  expiresIn : Int
  deriving DecidableEq, Repr

structure Request where
  method : String
  url : String
  timeoutSeconds : ℚ
  params : Option (List (String × PyValue)) := none
  headers : List (String × String) := []
  /-- The form-encoded body. -/
  data : Option (List (String × String)) := none
  deriving Repr

structure Response where
  statusCode : Nat
  headers : List (String × String)
  content : List UInt8
  deriving DecidableEq, Repr

/-- `response.headers.get(name)`: names are compared without case, and the values
of a repeated header are joined. -/
def Response.header (response : Response) (name : String) : Option String :=
  let lower := fun s : String => s.toList.map Char.toLower
  match response.headers.filter fun h => lower h.1 = lower name with
  | [] => none
  | found => some (", ".intercalate (found.map (·.2)))

/-- What becomes of a request: `httpx.TimeoutException`, another `httpx.HTTPError`,
or a response. -/
inductive Outcome
  | timeout (text : String)
  | httpError (text : String)
  | response (response : Response)
  deriving DecidableEq, Repr

/-- The two clients that send: each has a throttle and a retry budget of its own. -/
inductive Party
  | oauth
  | rest
  deriving DecidableEq, Repr

structure Errand where
  party : Party
  group : RateLimitGroup
  token : Option AccessToken
  deriving DecidableEq, Repr

inductive Event
  /-- `time.sleep(seconds)`. -/
  | slept (seconds : PyFloat)
  /-- A throttle reads the monotonic clock to see how long ago the last call was. -/
  | looked (party : Party) (group : RateLimitGroup)
  /-- A throttle reads the monotonic clock to note the call it lets through. -/
  | passed (party : Party) (group : RateLimitGroup)
  /-- The clock read that a token's expiry is compared with. -/
  | checked (token : AccessToken)
  /-- The clock read that a new token's lifetime is added to. -/
  | issued (parsed : ParsedToken)
  /-- The clock read that dates an envelope. -/
  | received (response : Response)
  /-- httpx could not build the request. -/
  | refused (errand : Errand) (request : Request)
  | sent (errand : Errand) (request : Request) (outcome : Outcome)
  deriving Repr

namespace Event

/-- The errand of a request that was sent. -/
def sending : Event → Option Errand
  | sent errand _ _ => some errand
  | _ => none

def passing : Event → Option (Party × RateLimitGroup)
  | passed party group => some (party, group)
  | _ => none

def sleeping : Event → Option PyFloat
  | slept seconds => some seconds
  | _ => none

def checking : Event → Option AccessToken
  | checked token => some token
  | _ => none

def issuing : Event → Option ParsedToken
  | issued parsed => some parsed
  | _ => none

/-- The errand of a request that was sent, and its `Authorization` header. -/
def authorization : Event → Option (Errand × String)
  | sent errand request _ =>
      (request.headers.lookup "Authorization").map fun value => (errand, value)
  | _ => none

def answering : Event → Option Response
  | sent _ _ (.response response) => some response
  | _ => none

end Event

/-- The clocks and the network by the number of events before, and the functions
of the libraries. -/
structure Env where
  /-- `time.monotonic()`, in exact seconds. -/
  monotonic : Nat → ℚ
  /-- `datetime.now(UTC)`. -/
  now : Nat → Instant
  transport : Nat → Outcome
  /-- The exception, of no httpx kind, that building the request raises. -/
  unsendable : Request → Option (Exn × String)
  /-- `response.json()`, or nothing when it raises `ValueError`. -/
  json : List UInt8 → Option PyValue
  /-- `model_validate_json` and `model_validate` of each DTO. -/
  tokenDto : List UInt8 → Except ValidationError ProvisionalTokenResponseDto
  pricesDto : PyValue → Except ValidationError PricesResponseDto
  orderbookDto : PyValue → Except ValidationError OrderbookResponseDto
  tradesDto : PyValue → Except ValidationError TradesResponseDto
  candlesDto : PyValue → Except ValidationError CandlesResponseDto
  rawEnvelopeDto : PyValue → Except ValidationError RawEnvelopeDto

/-- What the clients remember, and what has happened. -/
structure State where
  log : List Event
  /-- `_last_call_at` of each client's throttle. -/
  lastCallAt : Party → RateLimitGroup → Option ℚ
  /-- `_cached_token`. -/
  cachedToken : Option AccessToken

/-- A gateway as it is built. -/
def State.fresh : State where
  log := []
  lastCallAt _ _ := none
  cachedToken := none

abbrev Action (α : Type) : Type := Program State Raised α

def State.logged (s : State) (e : Event) : State := { s with log := s.log ++ [e] }

@[simp] theorem State.logged_log (s : State) (e : Event) : (s.logged e).log = s.log ++ [e] := rfl

/-- Notes an event and returns how many were before it. -/
def emit (e : Event) : Action Nat := do
  let n ← Program.read fun s : State => s.log.length
  Program.modify fun s => s.logged e
  return n

theorem emit_apply (e : Event) (s : State) : emit e s = (.ok s.log.length, s.logged e) := rfl

def readMonotonic (env : Env) (e : Event) : Action ℚ := do
  let n ← emit e
  return env.monotonic n

def readClock (env : Env) (e : Event) : Action Instant := do
  let n ← emit e
  return env.now n

/-- The exception `time.sleep` raises for a delay: the delay in nanoseconds has to
fit 64 bits and must not be negative. -/
def sleepError : PyFloat → Option (Exn × String)
  | .nan => some (.valueError, "Invalid value NaN (not a number)")
  | .infinity _ => some (.overflowError, "timestamp too large to convert to C PyTime_t")
  | .finite q =>
      let nanoseconds := q * 1000000000
      if nanoseconds < -2 ^ 63 ∨ 2 ^ 63 - 1 < nanoseconds then
        some (.overflowError, "timestamp too large to convert to C PyTime_t")
      else if q < 0 then some (.valueError, "sleep length must be non-negative")
      else none

/-- A sleep that returns was for a finite time. -/
theorem exists_finite_of_sleepError {seconds : PyFloat} (h : sleepError seconds = none) :
    ∃ q, seconds = .finite q := by
  cases seconds with
  | finite q => exact ⟨q, rfl⟩
  | infinity negative => cases h
  | nan => cases h

def raiseOther {α : Type} (error : Exn × String) : Action α :=
  Program.raise { cls := .other error.1, text := error.2 }

def sleep (seconds : PyFloat) : Action Unit := do
  let _ ← emit (.slept seconds)
  match sleepError seconds with
  | some error => raiseOther error
  | none => return ()

/-- `httpx.Client.request`, without the exceptions of its outcome. -/
def transmit (env : Env) (errand : Errand) (request : Request) : Action Outcome :=
  match env.unsendable request with
  | some error => do
      let _ ← emit (.refused errand request)
      raiseOther error
  | none => do
      let n ← Program.read fun s : State => s.log.length
      let _ ← emit (.sent errand request (env.transport n))
      return env.transport n

section Triples

variable {α : Type} {P : State → Prop} {E : Raised → State → Prop}

theorem triple_emit {e : Event} {Q : Nat → State → Prop}
    (h : ∀ s, P s → Q s.log.length (s.logged e)) : Program.Triple P (emit e) Q E := by
  intro s hs
  constructor
  · intro n s' hn
    rw [emit_apply] at hn
    obtain ⟨hn, rfl⟩ := Prod.mk.inj hn
    cases hn
    exact h s hs
  · intro error s' herror
    rw [emit_apply] at herror
    cases (Prod.mk.inj herror).1

theorem triple_readMonotonic {env : Env} {e : Event} {Q : ℚ → State → Prop}
    (h : ∀ s, P s → Q (env.monotonic s.log.length) (s.logged e)) :
    Program.Triple P (readMonotonic env e) Q E :=
  Program.triple_bind (fun n => Q (env.monotonic n)) (triple_emit h) fun _ =>
    Program.triple_pure fun _ hs => hs

theorem triple_readClock {env : Env} {e : Event} {Q : Instant → State → Prop}
    (h : ∀ s, P s → Q (env.now s.log.length) (s.logged e)) :
    Program.Triple P (readClock env e) Q E :=
  Program.triple_bind (fun n => Q (env.now n)) (triple_emit h) fun _ =>
    Program.triple_pure fun _ hs => hs

theorem triple_raiseOther {error : Exn × String} {Q : α → State → Prop}
    (h : ∀ s, P s → E { cls := .other error.1, text := error.2 } s) :
    Program.Triple P (raiseOther error) Q E :=
  Program.triple_raise h

theorem triple_sleep {seconds : PyFloat} {Q : Unit → State → Prop}
    (hok : sleepError seconds = none → ∀ s, P s → Q () (s.logged (.slept seconds)))
    (herror : ∀ error, sleepError seconds = some error → ∀ s, P s →
      E { cls := .other error.1, text := error.2 } (s.logged (.slept seconds))) :
    Program.Triple P (sleep seconds) Q E := by
  refine Program.triple_bind (fun _ s => ∃ s₀, P s₀ ∧ s = s₀.logged (.slept seconds)) ?_ ?_
  · exact triple_emit fun s hs => ⟨s, hs, rfl⟩
  · intro _
    cases hsleep : sleepError seconds with
    | none =>
      refine Program.triple_pure fun s hs => ?_
      obtain ⟨s₀, hs₀, rfl⟩ := hs
      exact hok hsleep s₀ hs₀
    | some error =>
      refine triple_raiseOther fun s hs => ?_
      obtain ⟨s₀, hs₀, rfl⟩ := hs
      exact herror error hsleep s₀ hs₀

theorem triple_transmit {env : Env} {errand : Errand} {request : Request}
    {Q : Outcome → State → Prop}
    (hsent : env.unsendable request = none → ∀ s, P s →
      Q (env.transport s.log.length) (s.logged (.sent errand request (env.transport s.log.length))))
    (hrefused : ∀ error, env.unsendable request = some error → ∀ s, P s →
      E { cls := .other error.1, text := error.2 } (s.logged (.refused errand request))) :
    Program.Triple P (transmit env errand request) Q E := by
  unfold transmit
  cases hsend : env.unsendable request with
  | none =>
    intro s hs
    constructor
    · intro outcome s' h
      obtain ⟨houtcome, rfl⟩ := Prod.mk.inj h
      cases houtcome
      exact hsent hsend s hs
    · intro e s' h
      cases (Prod.mk.inj h).1
  | some error =>
    intro s hs
    constructor
    · intro outcome s' h
      cases (Prod.mk.inj h).1
    · intro e s' h
      obtain ⟨he, rfl⟩ := Prod.mk.inj h
      cases he
      exact hrefused error hsend s hs

end Triples

end Toss
end QuantPlatform
