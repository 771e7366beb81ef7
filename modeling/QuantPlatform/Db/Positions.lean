/-
Positions as a reader at `as_of` finds them.

An observation is known from the `available_at` of its first delivery on, and says what its
last delivery says.  Of each instrument of the account a reader gets the latest observation
that is known; what is delivered later may rewrite its numbers but cannot put another one in
its place.  As for all plain events, batches that a foreign key, the width of a column or a NUL
refuses are left out.
-/
import QuantPlatform.Db.PlainEvents
import QuantPlatform.Relational.Ascending

namespace QuantPlatform
namespace Db

open Relational

section Known

variable {ρ κ : Type} {key : ρ → κ} [DecidableEq κ] (update : ConflictClause ρ key)
  (availableAt : ρ → Instant)

/-- After the batches, a row is stored that is available by `as_of`. -/
def Known (batches : List (List ρ)) (asOf : Instant) (r : ρ) : Prop :=
  Table.observed update (accepted key batches) (key r) = some r ∧ availableAt r ≤ asOf

variable {update availableAt}

theorem known_iff (hover : Table.Overwrites update) (batches : List (List ρ)) (asOf : Instant)
    (r : ρ) : Known update availableAt batches asOf r ↔
      r ∈ (afterBatches update .update batches).rows ∧ availableAt r ≤ asOf := by
  rw [Table.mem_rows_iff, find_afterBatches_update hover]
  exact Iff.rfl

theorem accepted_append (batches later : List (List ρ)) :
    accepted key (batches ++ later) = accepted key batches ++ accepted key later := by
  rw [accepted, List.filter_append, List.flatten_append]
  rfl

theorem mem_flatten_of_mem_accepted {batches : List (List ρ)} {r : ρ}
    (h : r ∈ accepted key batches) : r ∈ batches.flatten := by
  obtain ⟨rows, hrows, hr⟩ := List.mem_flatten.mp h
  exact List.mem_flatten.mpr ⟨rows, List.mem_of_mem_filter hrows, hr⟩

/-- Later batches change nothing of which keys are known. -/
theorem exists_known_append_iff (havailable : ∀ old new,
      availableAt (update.set old new) = availableAt old)
    {batches later : List (List ρ)} {asOf : Instant}
    (hlater : ∀ r ∈ later.flatten, asOf < availableAt r) (k : κ) :
    (∃ r, key r = k ∧ Known update availableAt (batches ++ later) asOf r) ↔
      ∃ r, key r = k ∧ Known update availableAt batches asOf r := by
  have hknown : ∀ all : List (List ρ),
      (∃ r, key r = k ∧ Known update availableAt all asOf r) ↔
        ∃ t ∈ ((accepted key all).find? fun r => key r = k).map availableAt, t ≤ asOf := by
    intro all
    rw [← Table.map_observed havailable]
    constructor
    · intro h
      obtain ⟨r, hr, hobserved, hat⟩ := h
      rw [← hr, hobserved]
      exact ⟨availableAt r, rfl, hat⟩
    · intro h
      obtain ⟨t, ht, hat⟩ := h
      obtain ⟨r, hobserved, rfl⟩ := Option.map_eq_some_iff.mp ht
      have hkey : key r = k := Table.key_of_observed hobserved
      exact ⟨r, hkey, hkey ▸ hobserved, hat⟩
  rw [hknown, hknown, accepted_append, List.find?_append]
  cases hfind : (accepted key batches).find? fun r => key r = k with
  | some r => rfl
  | none =>
    refine iff_of_false ?_ ?_
    · rintro ⟨t, ht, hat⟩
      obtain ⟨r, hr, rfl⟩ := Option.map_eq_some_iff.mp ht
      have hmem := mem_flatten_of_mem_accepted (List.mem_of_find?_eq_some hr)
      exact absurd hat (not_le.mpr (hlater r hmem))
    · rintro ⟨t, ht, _⟩
      cases ht

end Known

/-- A position, both as stored and as it is read. -/
structure PositionRow where
  accountId : String
  instrumentId : Nat
  eventTime : Instant
  availableAt : Instant
  ingestedAt : Instant
  quantity : Decimal
  avgPrice : Option Decimal
  source : String
  deriving DecidableEq, Repr

structure PositionKey where
  accountId : String
  instrumentId : Nat
  eventTime : Instant
  source : String
  deriving DecidableEq

def PositionRow.naturalKey (r : PositionRow) : PositionKey where
  accountId := r.accountId
  instrumentId := r.instrumentId
  eventTime := r.eventTime
  source := r.source

namespace Positions

/-- The update columns `quantity`, `avg_price`, and `ingested_at`. -/
def update : ConflictClause PositionRow PositionRow.naturalKey where
  set old new :=
    { old with quantity := new.quantity, avgPrice := new.avgPrice, ingestedAt := new.ingestedAt }
  key_set _ _ := rfl

/-- `upsert_positions`. -/
def upsertPositions (positions : Table PositionRow PositionRow.naturalKey)
    (rows : List PositionRow) : Except Exn (Table PositionRow PositionRow.naturalKey × Nat) :=
  upsertEventRows update .update positions rows

def after (batches : List (List PositionRow)) : Table PositionRow PositionRow.naturalKey :=
  afterBatches update .update batches

theorem after_concat_of_ok {batches : List (List PositionRow)} {rows : List PositionRow}
    {written : Table PositionRow PositionRow.naturalKey × Nat}
    (h : upsertPositions (after batches) rows = .ok written) :
    after (batches ++ [rows]) = written.1 :=
  afterBatches_concat_of_ok h

/-- A refused batch writes nothing. -/
theorem after_concat_of_error {batches : List (List PositionRow)} {rows : List PositionRow}
    {e : Exn} (h : upsertPositions (after batches) rows = .error e) :
    after (batches ++ [rows]) = after batches :=
  afterBatches_concat_of_error h

/-- `ORDER BY instrument_id, event_time DESC`. -/
abbrev PositionOrder : Type :=
  OrderBy PositionRow fun a b =>
    a.instrumentId < b.instrumentId ∨
      (a.instrumentId = b.instrumentId ∧ b.eventTime ≤ a.eventTime)

/-- `get_current_positions_as_of`: `DISTINCT ON (instrument_id)`. -/
def getCurrentPositionsAsOf (o : PositionOrder)
    (positions : Table PositionRow PositionRow.naturalKey) (accountId : String)
    (asOf : Instant) : List PositionRow :=
  firstPerKey PositionRow.instrumentId <| o.arrange <|
    positions.rows.filter fun r => r.accountId = accountId ∧ r.availableAt ≤ asOf

/-- The account is known to have held the position. -/
def Held (batches : List (List PositionRow)) (accountId : String) (asOf : Instant)
    (r : PositionRow) : Prop :=
  Known update PositionRow.availableAt batches asOf r ∧ r.accountId = accountId

theorem overwrites_update : Table.Overwrites update := ⟨fun _ _ _ => rfl, fun _ => rfl⟩

theorem mem_filter_after_iff (batches : List (List PositionRow)) (accountId : String)
    (asOf : Instant) (r : PositionRow) :
    (r ∈ (after batches).rows.filter fun r => r.accountId = accountId ∧ r.availableAt ≤ asOf) ↔
      Held batches accountId asOf r := by
  rw [List.mem_filter, Held, known_iff overwrites_update, after]
  simp [and_assoc, and_comm]

variable (o : PositionOrder) (batches : List (List PositionRow)) (accountId : String)
  (asOf : Instant)

theorem held_of_mem {r : PositionRow}
    (h : r ∈ getCurrentPositionsAsOf o (after batches) accountId asOf) :
    Held batches accountId asOf r :=
  (mem_filter_after_iff batches accountId asOf r).mp
    ((o.mem_arrange_iff _ r).mp (mem_of_mem_firstPerKey _ h))

/-- The position listed for an instrument is the latest one held. -/
theorem eventTime_le_of_mem {r s : PositionRow}
    (h : r ∈ getCurrentPositionsAsOf o (after batches) accountId asOf)
    (hs : Held batches accountId asOf s) (hsame : s.instrumentId = r.instrumentId) :
    s.eventTime ≤ r.eventTime := by
  have hmem := (o.mem_arrange_iff _ s).mpr ((mem_filter_after_iff batches accountId asOf s).mpr hs)
  rcases le_of_mem_firstPerKey _ (o.sorted _) h hmem hsame with hrs | hlt | hle
  · exact hrs ▸ le_rfl
  · exact absurd hsame.symm (Nat.ne_of_lt hlt)
  · exact hle.2

theorem exists_mem_of_held {s : PositionRow} (hs : Held batches accountId asOf s) :
    ∃ r ∈ getCurrentPositionsAsOf o (after batches) accountId asOf,
      r.instrumentId = s.instrumentId :=
  exists_mem_firstPerKey _
    ((o.mem_arrange_iff _ s).mpr ((mem_filter_after_iff batches accountId asOf s).mpr hs))

theorem strictlyAscending_positions : StrictlyAscending PositionRow.instrumentId
    (getCurrentPositionsAsOf o (after batches) accountId asOf) := by
  have hsorted := (o.sorted ((after batches).rows.filter fun r =>
    r.accountId = accountId ∧ r.availableAt ≤ asOf)).sublist
      (firstPerKey_sublist PositionRow.instrumentId _)
  have hascending : Ascending PositionRow.instrumentId
      (getCurrentPositionsAsOf o (after batches) accountId asOf) :=
    hsorted.imp fun h => h.elim Nat.le_of_lt fun heq => Nat.le_of_eq heq.1
  exact (strictlyAscending_iff_nodup hascending).mpr (keys_firstPerKey_nodup _ _)

/-- The instruments held and when each was observed. -/
def listing (rows : List PositionRow) : List (Nat × Instant) :=
  rows.map fun r => (r.instrumentId, r.eventTime)

/-- The instruments that the account held, at each time it was observed. -/
def heldAt : Set (Nat × Instant) :=
  {entry | ∃ r, Held batches accountId asOf r ∧ r.instrumentId = entry.1 ∧
    r.eventTime = entry.2}

theorem mem_listing_iff (entry : Nat × Instant) :
    entry ∈ listing (getCurrentPositionsAsOf o (after batches) accountId asOf) ↔
      entry ∈ heldAt batches accountId asOf ∧
        ∀ t, (entry.1, t) ∈ heldAt batches accountId asOf → t ≤ entry.2 := by
  constructor
  · intro h
    obtain ⟨r, hr, rfl⟩ := List.mem_map.mp h
    refine ⟨⟨r, held_of_mem o batches accountId asOf hr, rfl, rfl⟩, fun t ht => ?_⟩
    obtain ⟨s, hs, hsame, rfl⟩ := ht
    exact eventTime_le_of_mem o batches accountId asOf hr hs hsame
  · rintro ⟨⟨r, hr, hinstrument, htime⟩, hlatest⟩
    obtain ⟨s, hs, hsame⟩ := exists_mem_of_held o batches accountId asOf hr
    have hsame' : s.instrumentId = entry.1 := hsame.trans hinstrument
    refine List.mem_map.mpr ⟨s, hs, Prod.ext hsame' (le_antisymm ?_ ?_)⟩
    · exact hlatest s.eventTime ⟨s, held_of_mem o batches accountId asOf hs, hsame', rfl⟩
    · exact htime ▸ eventTime_le_of_mem o batches accountId asOf hs hr hsame.symm

variable {batches asOf}

/-- What becomes available after `as_of` adds no observation. -/
theorem heldAt_append {later : List (List PositionRow)}
    (hlater : ∀ r ∈ later.flatten, asOf < r.availableAt) :
    heldAt (batches ++ later) accountId asOf = heldAt batches accountId asOf := by
  have hkeys : ∀ {all all' : List (List PositionRow)},
      (∀ k : PositionKey, (∃ r, r.naturalKey = k ∧
          Known update PositionRow.availableAt all asOf r) →
        ∃ r, r.naturalKey = k ∧ Known update PositionRow.availableAt all' asOf r) →
      heldAt all accountId asOf ⊆ heldAt all' accountId asOf := by
    rintro all all' h entry ⟨r, ⟨hknown, haccount⟩, hinstrument, htime⟩
    obtain ⟨r', hkey, hknown'⟩ := h _ ⟨r, rfl, hknown⟩
    simp only [PositionRow.naturalKey, PositionKey.mk.injEq] at hkey
    exact ⟨r', ⟨hknown', hkey.1.trans haccount⟩, hkey.2.1.trans hinstrument,
      hkey.2.2.1.trans htime⟩
  have hiff : ∀ k : PositionKey,
      (∃ r, r.naturalKey = k ∧ Known update PositionRow.availableAt (batches ++ later) asOf r) ↔
        ∃ r, r.naturalKey = k ∧ Known update PositionRow.availableAt batches asOf r :=
    fun k => exists_known_append_iff (fun _ _ => rfl) hlater k
  exact Set.Subset.antisymm (hkeys fun k => (hiff k).mp) (hkeys fun k => (hiff k).mpr)

theorem listing_append (o' : PositionOrder) {later : List (List PositionRow)}
    (hlater : ∀ r ∈ later.flatten, asOf < r.availableAt) :
    listing (getCurrentPositionsAsOf o' (after (batches ++ later)) accountId asOf) =
      listing (getCurrentPositionsAsOf o (after batches) accountId asOf) := by
  have hsorted : ∀ (o : PositionOrder) (all : List (List PositionRow)),
      StrictlyAscending (Prod.fst : Nat × Instant → Nat)
        (listing (getCurrentPositionsAsOf o (after all) accountId asOf)) := fun o all =>
    List.pairwise_map.mpr (strictlyAscending_positions o all accountId asOf)
  refine (hsorted o' _).eq_of_mem_iff (hsorted o batches) fun entry => ?_
  rw [mem_listing_iff, mem_listing_iff, heldAt_append accountId hlater]

/-- A reader gets, instrument by instrument, the latest position known to be held at
`as_of`, with the numbers that were delivered for it last; later batches may change these
numbers, but neither the instruments listed nor the observation listed for each. -/
theorem positions_as_observed (batches : List (List PositionRow)) (o : PositionOrder)
    (accountId : String) (asOf : Instant) :
    StrictlyAscending PositionRow.instrumentId
        (getCurrentPositionsAsOf o (after batches) accountId asOf) ∧
      (∀ r ∈ getCurrentPositionsAsOf o (after batches) accountId asOf,
        Held batches accountId asOf r ∧
          ∀ s, Held batches accountId asOf s → s.instrumentId = r.instrumentId →
            s.eventTime ≤ r.eventTime) ∧
      (∀ s, Held batches accountId asOf s →
        ∃ r ∈ getCurrentPositionsAsOf o (after batches) accountId asOf,
          r.instrumentId = s.instrumentId) ∧
      ∀ (o' : PositionOrder) (later : List (List PositionRow)),
        (∀ r ∈ later.flatten, asOf < r.availableAt) →
        listing (getCurrentPositionsAsOf o' (after (batches ++ later)) accountId asOf) =
          listing (getCurrentPositionsAsOf o (after batches) accountId asOf) := by
  refine ⟨strictlyAscending_positions o batches accountId asOf, fun r hr => ⟨?_, ?_⟩, ?_, ?_⟩
  · exact held_of_mem o batches accountId asOf hr
  · exact fun s hs hsame => eventTime_le_of_mem o batches accountId asOf hr hs hsame
  · exact fun s hs => exists_mem_of_held o batches accountId asOf hs
  · exact fun o' later hlater => listing_append o accountId o' hlater

end Positions

end Db
end QuantPlatform
