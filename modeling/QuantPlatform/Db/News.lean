/-
News and disclosure events.

Both are revisioned under `(source, external_id)`, so the columns a read filters
on (`event_time`, the related symbols, the instrument) are not part of the
logical key and can differ between the revisions of one event.
-/
import QuantPlatform.Db.Revisions

namespace QuantPlatform
namespace Db

open Relational

/-- The logical key of a news article or a filing. -/
@[ext]
structure EventKey where
  source : String
  externalId : String
  deriving DecidableEq, Repr

structure NewsValue where
  eventTime : Instant
  headline : String
  body : Option String
  relatedSymbols : Option (List String)
  rawPayload : Option PyValue

structure NewsEventRow where
  source : String
  externalId : String
  eventTime : Instant
  availableAt : Instant
  ingestedAt : Instant
  revision : Nat
  headline : String
  body : Option String
  relatedSymbols : Option (List String)
  deriving DecidableEq, Repr

/-- What a read shows of an article, beside its key and the bookkeeping columns. -/
structure NewsContent where
  eventTime : Instant
  headline : String
  body : Option String
  relatedSymbols : Option (List String)
  deriving DecidableEq, Repr

def NewsValue.content (v : NewsValue) : NewsContent :=
  { eventTime := v.eventTime, headline := v.headline, body := v.body
    relatedSymbols := v.relatedSymbols }

def NewsEventRow.key (row : NewsEventRow) : EventKey :=
  { source := row.source, externalId := row.externalId }

def NewsEventRow.content (row : NewsEventRow) : NewsContent :=
  { eventTime := row.eventTime, headline := row.headline, body := row.body
    relatedSymbols := row.relatedSymbols }

abbrev NewsEvents := RevisionTable EventKey NewsValue
abbrev NewsInput := RevisionInput EventKey NewsValue

def NewsEventRow.ofRow (r : RevisionRow EventKey NewsValue) : NewsEventRow :=
  { source := r.key.source
    externalId := r.key.externalId
    eventTime := r.value.eventTime
    availableAt := r.availableAt
    ingestedAt := r.ingestedAt
    revision := r.revision
    headline := r.value.headline
    body := r.value.body
    relatedSymbols := r.value.relatedSymbols }

def upsertNews (news : NewsEvents) (rows : List NewsInput) : NewsEvents × Nat :=
  appendRevisionRows news rows

abbrev NewsOrder :=
  OrderBy (RevisionRow EventKey NewsValue) fun a b => a.value.eventTime ≤ b.value.eventTime

/-- `related_symbols @> [symbol]`, which a `NULL` does not satisfy. -/
def containsSymbol (relatedSymbols : Option (List String)) (symbol : String) : Bool :=
  match relatedSymbols with
  | none => false
  | some symbols => decide (symbol ∈ symbols)

def newsFilter (start stop : Instant) (symbol : Option String)
    (r : RevisionRow EventKey NewsValue) : Bool :=
  decide (start ≤ r.value.eventTime) && decide (r.value.eventTime ≤ stop) &&
    match symbol with
    | none => true
    | some s => containsSymbol r.value.relatedSymbols s

def getNewsAsOf (order : NewsOrder) (news : NewsEvents) (start stop asOf : Instant)
    (symbol : Option String) : List NewsEventRow :=
  (selectLatestRevisionAsOf order news (newsFilter start stop symbol) asOf).map NewsEventRow.ofRow

structure DisclosureValue where
  instrumentId : Option Nat
  eventTime : Instant
  title : String
  filingType : Option String
  rawPayload : Option PyValue

structure DisclosureEventRow where
  source : String
  externalId : String
  instrumentId : Option Nat
  eventTime : Instant
  availableAt : Instant
  ingestedAt : Instant
  revision : Nat
  title : String
  filingType : Option String
  deriving DecidableEq, Repr

/-- What a read shows of a filing, beside its key and the bookkeeping columns. -/
structure DisclosureContent where
  instrumentId : Option Nat
  eventTime : Instant
  title : String
  filingType : Option String
  deriving DecidableEq, Repr

def DisclosureValue.content (v : DisclosureValue) : DisclosureContent :=
  { instrumentId := v.instrumentId, eventTime := v.eventTime, title := v.title
    filingType := v.filingType }

def DisclosureEventRow.key (row : DisclosureEventRow) : EventKey :=
  { source := row.source, externalId := row.externalId }

def DisclosureEventRow.content (row : DisclosureEventRow) : DisclosureContent :=
  { instrumentId := row.instrumentId, eventTime := row.eventTime, title := row.title
    filingType := row.filingType }

abbrev DisclosureEvents := RevisionTable EventKey DisclosureValue
abbrev DisclosureInput := RevisionInput EventKey DisclosureValue

def DisclosureEventRow.ofRow (r : RevisionRow EventKey DisclosureValue) : DisclosureEventRow :=
  { source := r.key.source
    externalId := r.key.externalId
    instrumentId := r.value.instrumentId
    eventTime := r.value.eventTime
    availableAt := r.availableAt
    ingestedAt := r.ingestedAt
    revision := r.revision
    title := r.value.title
    filingType := r.value.filingType }

def upsertDisclosures (disclosures : DisclosureEvents) (rows : List DisclosureInput) :
    DisclosureEvents × Nat :=
  appendRevisionRows disclosures rows

abbrev DisclosureOrder :=
  OrderBy (RevisionRow EventKey DisclosureValue) fun a b =>
    a.value.eventTime ≤ b.value.eventTime

/-- `instrument_id = …`, which a `NULL` does not satisfy. -/
def disclosureFilter (start stop : Instant) (instrumentId : Option Nat)
    (r : RevisionRow EventKey DisclosureValue) : Bool :=
  decide (start ≤ r.value.eventTime) && decide (r.value.eventTime ≤ stop) &&
    match instrumentId with
    | none => true
    | some id => decide (r.value.instrumentId = some id)

def getDisclosuresAsOf (order : DisclosureOrder) (disclosures : DisclosureEvents)
    (start stop asOf : Instant) (instrumentId : Option Nat) : List DisclosureEventRow :=
  (selectLatestRevisionAsOf order disclosures (disclosureFilter start stop instrumentId) asOf).map
    DisclosureEventRow.ofRow

end Db
end QuantPlatform
