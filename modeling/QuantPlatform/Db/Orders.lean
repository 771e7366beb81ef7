/-
The book of paper orders.

A client order id is recorded once, by its first submission, and from then on only the status
of the order moves.  A call that the table refuses for a foreign key, the width of a column or
a NUL is rolled back, and is not among the calls here.
-/
import QuantPlatform.Python.Data
import QuantPlatform.Relational.Identity

namespace QuantPlatform
namespace Db

open Relational

structure PaperOrderRow where
  clientOrderId : String
  instrumentId : Nat
  side : String
  orderType : String
  quantity : Decimal
  limitPrice : Option Decimal
  status : String
  submittedAt : Instant
  updatedAt : Instant
  deriving DecidableEq, Repr

/-- `UPDATE paper_orders SET status, updated_at WHERE client_order_id = …`, of one row. -/
def PaperOrderRow.restated (clientOrderId status : String) (now : Instant)
    (row : PaperOrderRow) : PaperOrderRow :=
  if row.clientOrderId = clientOrderId then { row with status, updatedAt := now } else row

@[simp] theorem PaperOrderRow.clientOrderId_restated (clientOrderId status : String)
    (now : Instant) (row : PaperOrderRow) :
    (row.restated clientOrderId status now).clientOrderId = row.clientOrderId := by
  unfold restated
  split <;> rfl

/-- A row of the table. -/
structure PaperOrderEntry extends PaperOrderRow where
  id : Nat
  deriving DecidableEq, Repr

/-- The arguments of `record_submission`. -/
structure Submission where
  clientOrderId : String
  instrumentId : Nat
  side : String
  orderType : String
  quantity : Decimal
  limitPrice : Option Decimal := none
  status : String := "submitted"
  deriving DecidableEq, Repr

/-- The row as it is inserted: both times default to `now()`. -/
def Submission.toRow (submission : Submission) (now : Instant) : PaperOrderRow where
  clientOrderId := submission.clientOrderId
  instrumentId := submission.instrumentId
  side := submission.side
  orderType := submission.orderType
  quantity := submission.quantity
  limitPrice := submission.limitPrice
  status := submission.status
  submittedAt := now
  updatedAt := now

namespace PaperOrders

/-- `UNIQUE (client_order_id)`. -/
def key (entry : PaperOrderEntry) : Option String := some entry.clientOrderId

end PaperOrders

abbrev PaperOrders : Type := IdentityTable PaperOrderEntry PaperOrderEntry.id PaperOrders.key

namespace PaperOrders

def draft (submission : Submission) (now : Instant) :
    Draft PaperOrderEntry PaperOrderEntry.id key where
  key? := some submission.clientOrderId
  toRow n := { submission.toRow now with id := n }
  id_toRow _ := rfl
  key_toRow _ := rfl

def statusPatch (clientOrderId status : String) (now : Instant) :
    Patch PaperOrderEntry PaperOrderEntry.id key where
  apply entry :=
    { entry with toPaperOrderRow := entry.toPaperOrderRow.restated clientOrderId status now }
  id_apply _ := rfl
  key_apply entry := congrArg some (entry.clientOrderId_restated clientOrderId status now)

/-- `record_submission`. -/
def recordSubmission (orders : PaperOrders) (submission : Submission) (now : Instant) :
    PaperOrders × Nat × Bool := orders.create (draft submission now)

/-- `update_status`. -/
def updateStatus (orders : PaperOrders) (clientOrderId status : String) (now : Instant) :
    PaperOrders := orders.update (statusPatch clientOrderId status now)

/-- `get_by_client_order_id`. -/
def getByClientOrderId (orders : PaperOrders) (clientOrderId : String) : Option PaperOrderRow :=
  (orders.find clientOrderId).map PaperOrderEntry.toPaperOrderRow

/-- The identity that the order is recorded under. -/
def identityOf (orders : PaperOrders) (clientOrderId : String) : Option Nat :=
  (orders.find clientOrderId).map PaperOrderEntry.id

/-- A call of the repository, with `now()` of its transaction. -/
inductive Call
  | recordSubmission (submission : Submission) (now : Instant)
  | updateStatus (clientOrderId status : String) (now : Instant)

namespace Call

def toWrite : Call → IdentityTable.Write PaperOrderEntry.id key
  | recordSubmission submission now => .create (draft submission now)
  | updateStatus clientOrderId status now => .update (statusPatch clientOrderId status now)

/-- The call submits the order. -/
def Submits (clientOrderId : String) : Call → Prop
  | recordSubmission submission _ => submission.clientOrderId = clientOrderId
  | updateStatus _ _ _ => False

instance (clientOrderId : String) (call : Call) : Decidable (call.Submits clientOrderId) :=
  match call with
  | recordSubmission submission _ =>
      inferInstanceAs (Decidable (submission.clientOrderId = clientOrderId))
  | updateStatus _ _ _ => inferInstanceAs (Decidable False)

/-- The status that the call gives the order, and when. -/
def statusOf (clientOrderId : String) : Call → Option (String × Instant)
  | recordSubmission _ _ => none
  | updateStatus clientOrderId' status now =>
      if clientOrderId' = clientOrderId then some (status, now) else none

theorem drafts_toWrite_iff (call : Call) (clientOrderId : String) :
    call.toWrite.Drafts clientOrderId ↔ call.Submits clientOrderId := by
  cases call with
  | recordSubmission submission now => exact Option.some_inj
  | updateStatus clientOrderId' status now => exact Iff.rfl

end Call

/-- The table after calls on an empty one. -/
def after (calls : List Call) : PaperOrders :=
  IdentityTable.empty.after (calls.map Call.toWrite)

/-- What the calls return: `record_submission` an identity and whether it is new. -/
def answers (calls : List Call) : List (Option (Nat × Bool)) :=
  (IdentityTable.empty : PaperOrders).answers (calls.map Call.toWrite)

/-- What later calls make of an order. -/
def followed (row : PaperOrderRow) (later : List Call) : PaperOrderRow :=
  let last := (later.filterMap (Call.statusOf row.clientOrderId)).getLast?
  { row with
    status := (last.getD (row.status, row.updatedAt)).1
    updatedAt := (last.getD (row.status, row.updatedAt)).2 }

/-- The order as the calls tell it: its first submission, and the last status after it. -/
def bookEntry : List Call → String → Option PaperOrderRow
  | [], _ => none
  | call :: later, clientOrderId =>
      match call with
      | .recordSubmission submission now =>
          if submission.clientOrderId = clientOrderId then
            some (followed (submission.toRow now) later)
          else bookEntry later clientOrderId
      | .updateStatus _ _ _ => bookEntry later clientOrderId

theorem followed_cons_recordSubmission (row : PaperOrderRow) (submission : Submission)
    (now : Instant) (later : List Call) :
    followed row (.recordSubmission submission now :: later) = followed row later := rfl

theorem followed_cons_updateStatus (row : PaperOrderRow) (clientOrderId status : String)
    (now : Instant) (later : List Call) :
    followed row (.updateStatus clientOrderId status now :: later) =
      followed (row.restated clientOrderId status now) later := by
  unfold PaperOrderRow.restated
  by_cases h : row.clientOrderId = clientOrderId
  · subst h
    rw [if_pos rfl]
    unfold followed
    rw [List.filterMap_cons, Call.statusOf, if_pos rfl]
    simp only [List.getLast?_cons]
    cases (later.filterMap (Call.statusOf row.clientOrderId)).getLast? with
    | none => rfl
    | some last => rfl
  · rw [if_neg h]
    unfold followed
    rw [List.filterMap_cons, Call.statusOf, if_neg (Ne.symm h)]

theorem get_create_of_found {orders : PaperOrders} {clientOrderId : String}
    {row : PaperOrderRow} (h : orders.getByClientOrderId clientOrderId = some row)
    (submission : Submission) (now : Instant) :
    (orders.recordSubmission submission now).1.getByClientOrderId clientOrderId = some row := by
  obtain ⟨entry, hentry, rfl⟩ := Option.map_eq_some_iff.mp h
  show (IdentityTable.find (orders.create (draft submission now)).1 clientOrderId).map _ = _
  rw [IdentityTable.find_create, hentry]
  rfl

theorem get_update_of_found {orders : PaperOrders} {clientOrderId : String}
    {row : PaperOrderRow} (h : orders.getByClientOrderId clientOrderId = some row)
    (clientOrderId' status : String) (now : Instant) :
    (orders.updateStatus clientOrderId' status now).getByClientOrderId clientOrderId =
      some (row.restated clientOrderId' status now) := by
  obtain ⟨entry, hentry, rfl⟩ := Option.map_eq_some_iff.mp h
  show (IdentityTable.find (orders.update (statusPatch clientOrderId' status now))
    clientOrderId).map _ = _
  rw [IdentityTable.find_update, hentry]
  rfl

/-- A recorded order is followed by the calls that come after. -/
theorem get_after_of_found {orders : PaperOrders} {clientOrderId : String} {row : PaperOrderRow}
    (h : orders.getByClientOrderId clientOrderId = some row) (later : List Call) :
    getByClientOrderId (IdentityTable.after orders (later.map Call.toWrite)) clientOrderId =
      some (followed row later) := by
  induction later generalizing orders row with
  | nil => exact h
  | cons call later ih =>
    cases call with
    | recordSubmission submission now =>
      rw [followed_cons_recordSubmission]
      exact ih (get_create_of_found h submission now)
    | updateStatus clientOrderId' status now =>
      rw [followed_cons_updateStatus]
      exact ih (get_update_of_found h clientOrderId' status now)

/-- On a table without the order, the calls come to its book entry. -/
theorem get_after_of_not_found {orders : PaperOrders} {clientOrderId : String}
    (h : orders.find clientOrderId = none) (calls : List Call) :
    getByClientOrderId (IdentityTable.after orders (calls.map Call.toWrite)) clientOrderId =
      bookEntry calls clientOrderId := by
  induction calls generalizing orders with
  | nil => exact congrArg (Option.map _) h
  | cons call later ih =>
    cases call with
    | recordSubmission submission now =>
      by_cases hkey : submission.clientOrderId = clientOrderId
      · rw [bookEntry, if_pos hkey]
        refine get_after_of_found ?_ later
        have hdraft : (draft submission now).key? = some clientOrderId := congrArg some hkey
        show (IdentityTable.find (orders.create (draft submission now)).1 clientOrderId).map _ = _
        rw [IdentityTable.find_create, h, if_pos hdraft]
        rfl
      · rw [bookEntry, if_neg hkey]
        refine ih (IdentityTable.find_write_of_not_drafts (fun hdrafts => hkey ?_) h)
        exact (Call.drafts_toWrite_iff _ clientOrderId).mp hdrafts
    | updateStatus clientOrderId' status now =>
      exact ih (IdentityTable.find_write_of_not_drafts (fun hdrafts => hdrafts) h)

/-- The table holds what the calls tell of each order, an order keeps one identity that no
other order has, and a submission is answered with that identity and as new exactly when it
is the first of its order. -/
theorem orders_recorded_once (calls : List Call) :
    (∀ clientOrderId,
      (after calls).getByClientOrderId clientOrderId = bookEntry calls clientOrderId) ∧
    (∀ before submission now later, calls = before ++ .recordSubmission submission now :: later →
      ∃ n, (answers calls)[before.length]? =
          some (some (n, decide (∀ call ∈ before, ¬ call.Submits submission.clientOrderId))) ∧
        (after calls).identityOf submission.clientOrderId = some n) ∧
    ∀ clientOrderId clientOrderId' n, (after calls).identityOf clientOrderId = some n →
      (after calls).identityOf clientOrderId' = some n → clientOrderId = clientOrderId' := by
  refine ⟨fun clientOrderId => get_after_of_not_found rfl calls, ?_, ?_⟩
  · intro before submission now later hcalls
    subst hcalls
    have hkey : (draft submission now).key? = some submission.clientOrderId := rfl
    obtain ⟨n, hanswer, hid⟩ := IdentityTable.answers_create
      (before.map Call.toWrite) (later.map Call.toWrite) hkey
    have hfirst : (∀ w ∈ before.map Call.toWrite, ¬ w.Drafts submission.clientOrderId) ↔
        ∀ call ∈ before, ¬ call.Submits submission.clientOrderId := by
      rw [List.forall_mem_map]
      exact forall₂_congr fun call _ => not_congr (Call.drafts_toWrite_iff call _)
    have hmap : (before ++ .recordSubmission submission now :: later).map Call.toWrite =
        before.map Call.toWrite ++ .create (draft submission now) :: later.map Call.toWrite := by
      rw [List.map_append, List.map_cons]
      rfl
    rw [answers, after, hmap]
    refine ⟨n, ?_, hid⟩
    rw [List.length_map, decide_eq_decide.mpr hfirst] at hanswer
    exact hanswer
  · intro clientOrderId clientOrderId' n h h'
    exact IdentityTable.key_eq_of_id_eq _ h h'

end PaperOrders

end Db
end QuantPlatform
