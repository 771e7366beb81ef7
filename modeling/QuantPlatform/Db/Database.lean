/-
The database the scanner reads, and the repository calls that write it.

A call that raises is rolled back with its transaction, so it leaves the
database as it was.  Rows that a foreign key, the width of a column or a NUL
refuses are left out: their call raises too and leaves no trace.  What is left to
raise is `upsert_snapshots`, which writes its batch in one statement.
-/
import QuantPlatform.Db.MarketData
import QuantPlatform.Db.News

namespace QuantPlatform
namespace Db

open Relational

structure Database where
  instruments : Instruments
  marketBars : MarketBars
  newsEvents : NewsEvents
  disclosureEvents : DisclosureEvents
  orderbookSnapshots : OrderbookSnapshots

namespace Database

def empty : Database where
  instruments := Instruments.empty
  marketBars := Table.empty
  newsEvents := Table.empty
  disclosureEvents := Table.empty
  orderbookSnapshots := Table.empty

end Database

inductive UpsertCall
  | bars (rows : List BarInput)
  | news (rows : List NewsInput)
  | disclosures (rows : List DisclosureInput)
  | snapshots (rows : List OrderBookSnapshotRow)

namespace UpsertCall

def run (db : Database) : UpsertCall → Except Exn Database
  | bars rows => .ok { db with marketBars := (upsertBars db.marketBars rows).1 }
  | news rows => .ok { db with newsEvents := (upsertNews db.newsEvents rows).1 }
  | disclosures rows =>
      .ok { db with disclosureEvents := (upsertDisclosures db.disclosureEvents rows).1 }
  | snapshots rows => do
      let (written, _) ← upsertSnapshots db.orderbookSnapshots rows
      return { db with orderbookSnapshots := written }

/-- The database once the call's transaction has ended. -/
def commit (db : Database) (call : UpsertCall) : Database :=
  match call.run db with
  | .ok written => written
  | .error _ => db

theorem commit_snapshots_error {db : Database} {rows : List OrderBookSnapshotRow} {e : Exn}
    (h : upsertSnapshots db.orderbookSnapshots rows = .error e) :
    (snapshots rows).commit db = db := by
  simp only [commit, run, h]
  rfl

theorem commit_snapshots_ok {db : Database} {rows : List OrderBookSnapshotRow}
    {written : OrderbookSnapshots × Nat}
    (h : upsertSnapshots db.orderbookSnapshots rows = .ok written) :
    (snapshots rows).commit db = { db with orderbookSnapshots := written.1 } := by
  simp only [commit, run, h]
  rfl

/-- Every row of the call becomes available after the instant. -/
def AvailableAfter (cutoff : Instant) : UpsertCall → Prop
  | bars rows => ∀ row ∈ rows, cutoff < row.availableAt
  | news rows => ∀ row ∈ rows, cutoff < row.availableAt
  | disclosures rows => ∀ row ∈ rows, cutoff < row.availableAt
  | snapshots rows => ∀ row ∈ rows, cutoff < row.availableAt

end UpsertCall

/-- The database after one call after another. -/
def Database.after (db : Database) (calls : List UpsertCall) : Database :=
  calls.foldl UpsertCall.commit db

end Db
end QuantPlatform
