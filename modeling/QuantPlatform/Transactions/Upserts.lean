/-
Concurrent upserts at READ COMMITTED.

A statement is `INSERT … ON CONFLICT (key) DO UPDATE SET …` of one row, and part of the row
may be a subquery.  The subquery sees a snapshot: the rows committed when the statement
began, and those of its own transaction.  The unique index is looked at when the row is
written.  A key that another open transaction has written is waited for, and the row that
then collides is the one committed by then, whether the snapshot had it or not.

So a row may be computed from less than there is where it is written, and that is all an
interleaving can do.  In every run the committed rows are those that the rows sent, upserted
one after another in the order of the commits, leave.  What is known of a row at the table it
is computed from, and stays so while other transactions commit (`Criterion`), is known of it
at the table it is upserted into (`Reachable.inv`).

`isNew` says which branch a row sent has taken.  `log` is what the committed transactions
have sent; no step reads it.
-/
import Mathlib.Logic.Function.Basic
import Mathlib.Logic.Relation
import QuantPlatform.Relational.Table
import QuantPlatform.Transactions.ReadCommitted

namespace Transactions
namespace Upserts

open Relational

/-- The row a statement writes for an input, by the rows its snapshot has. -/
structure Statement (ρ : Type) {κ : Type} (key : ρ → κ) (Input : Type) where
  keyOf : Input → κ
  row : List ρ → Input → ρ
  key_row : ∀ rows input, key (row rows input) = keyOf input

/-- A row that has been written. -/
structure Sent (Input ρ : Type) where
  input : Input
  row : ρ
  isNew : Bool

/-- A transaction.  `pending` is a statement that has begun: its snapshot is taken and its
row computed. -/
structure Txn (Input ρ : Type) where
  status : Status
  sent : List (Sent Input ρ)
  pending : Option (Input × ρ)

def Txn.fresh {Input ρ : Type} : Txn Input ρ where
  status := .active
  sent := []
  pending := none

structure World (ι Input ρ : Type) where
  rows : List ρ
  txn : ι → Txn Input ρ
  log : List (Sent Input ρ)

def World.start {ι Input ρ : Type} (rows : List ρ) : World ι Input ρ where
  rows := rows
  txn _ := Txn.fresh
  log := []

/-- The inputs of the statements a transaction has begun. -/
def Txn.begun {Input ρ : Type} (t : Txn Input ρ) : List Input :=
  t.sent.map Sent.input ++ t.pending.toList.map Prod.fst

section Steps

variable {ι Input ρ κ : Type} {key : ρ → κ} [DecidableEq κ]

/-- What a row sent does to the rows: it is added, or sets the one it collides with. -/
def Sent.apply (c : ConflictClause ρ key) (rows : List ρ) (s : Sent Input ρ) : List ρ :=
  if s.isNew then rows ++ [s.row]
  else rows.map fun r => if key r = key s.row then c.set r s.row else r

/-- The rows a statement of the transaction sees. -/
def World.visible (c : ConflictClause ρ key) (w : World ι Input ρ) (i : ι) : List ρ :=
  (w.txn i).sent.foldl (Sent.apply c) w.rows

omit [DecidableEq κ] in
/-- Another open transaction has written the key. -/
def World.Blocked (key : ρ → κ) (w : World ι Input ρ) (i : ι) (k : κ) : Prop :=
  ∃ j, j ≠ i ∧ (w.txn j).status = .active ∧ ∃ s ∈ (w.txn j).sent, key s.row = k

/-- A row is written, by the branch that the rows there are decide. -/
def World.send (c : ConflictClause ρ key) (w : World ι Input ρ) (i : ι) (input : Input) (row : ρ) :
    Sent Input ρ where
  input := input
  row := row
  isNew := !(w.visible c i).any fun r => key r = key row

variable [DecidableEq ι]

def World.set (w : World ι Input ρ) (i : ι) (t : Txn Input ρ) : World ι Input ρ :=
  { w with txn := Function.update w.txn i t }

/-- One step of one transaction.  A transaction that has to wait for ever may be rolled
back, as any other. -/
inductive Step (c : ConflictClause ρ key) (st : Statement ρ key Input) :
    World ι Input ρ → World ι Input ρ → Prop
  | begin (w : World ι Input ρ) (i : ι) (input : Input) (hactive : (w.txn i).status = .active)
      (hidle : (w.txn i).pending = none) :
      Step c st w
        (w.set i { w.txn i with pending := some (input, st.row (w.visible c i) input) })
  | finish (w : World ι Input ρ) (i : ι) (input : Input) (row : ρ)
      (hactive : (w.txn i).status = .active) (hpending : (w.txn i).pending = some (input, row))
      (hopen : ¬ w.Blocked key i (key row)) :
      Step c st w
        (w.set i { w.txn i with
          sent := (w.txn i).sent ++ [w.send c i input row], pending := none })
  | commit (w : World ι Input ρ) (i : ι) (hactive : (w.txn i).status = .active)
      (hidle : (w.txn i).pending = none) :
      Step c st w
        { w.set i { w.txn i with status := .committed } with
          rows := w.visible c i, log := w.log ++ (w.txn i).sent }
  | rollback (w : World ι Input ρ) (i : ι) (hactive : (w.txn i).status = .active) :
      Step c st w (w.set i { w.txn i with status := .rolledBack })

omit [DecidableEq κ] [DecidableEq ι] in
/-- No two open transactions have begun statements that are not apart. -/
def World.Apart (apart : Input → Input → Prop) (w : World ι Input ρ) : Prop :=
  ∀ i j, i ≠ j → (w.txn i).status = .active → (w.txn j).status = .active →
    ∀ a ∈ (w.txn i).begun, ∀ b ∈ (w.txn j).begun, apart a b

/-- The runs in which open transactions stay apart: any run, if any two statements are. -/
abbrev Reachable (c : ConflictClause ρ key) (st : Statement ρ key Input)
    (apart : Input → Input → Prop) : World ι Input ρ → World ι Input ρ → Prop :=
  Relation.ReflTransGen fun w w' => Step c st w w' ∧ w'.Apart apart

omit [DecidableEq κ] in
@[simp] theorem set_txn_self (w : World ι Input ρ) (i : ι) (t : Txn Input ρ) :
    (w.set i t).txn i = t := by
  unfold World.set
  exact Function.update_self ..

omit [DecidableEq κ] in
theorem set_txn_of_ne (w : World ι Input ρ) {i j : ι} (h : j ≠ i) (t : Txn Input ρ) :
    (w.set i t).txn j = w.txn j := by
  unfold World.set
  exact Function.update_of_ne h ..

end Steps

/-! ## Upserts of different keys -/

section Tables

variable {ρ κ : Type} {key : ρ → κ} [DecidableEq κ]

/-- Two tables that answer every lookup alike. -/
def Alike (t t' : Table ρ key) : Prop := ∀ k, t.find k = t'.find k

theorem Alike.insert {t t' : Table ρ key} (h : Alike t t') (c : ConflictClause ρ key) (new : ρ) :
    Alike (t.insert c new) (t'.insert c new) := by
  intro k
  rw [Table.find_insert, Table.find_insert, h k]

theorem Alike.insertAll {t t' : Table ρ key} (h : Alike t t') (c : ConflictClause ρ key)
    (news : List ρ) : Alike (t.insertAll c news) (t'.insertAll c news) := by
  induction news generalizing t t' with
  | nil => exact h
  | cons new rest ih => exact ih (h.insert c new)

theorem alike_insert_comm (c : ConflictClause ρ key) (t : Table ρ key) {first second : ρ}
    (hne : key first ≠ key second) :
    Alike ((t.insert c first).insert c second) ((t.insert c second).insert c first) := by
  intro k
  simp only [Table.find_insert]
  by_cases hfirst : k = key first
  · have hsecond : k ≠ key second := hfirst ▸ hne
    rw [if_neg hsecond, if_pos hfirst, if_pos hfirst, if_neg hsecond]
  · rw [if_neg hfirst, if_neg hfirst]

/-- A row may be upserted before rows of other keys or after them. -/
theorem alike_insertAll_insert (c : ConflictClause ρ key) {new : ρ} {news : List ρ}
    (hne : ∀ row ∈ news, key new ≠ key row) (t : Table ρ key) :
    Alike ((t.insert c new).insertAll c news) ((t.insertAll c news).insert c new) := by
  induction news generalizing t with
  | nil => exact fun k => rfl
  | cons row rest ih =>
    obtain ⟨hrow, hrest⟩ := List.forall_mem_cons.mp hne
    intro k
    have hswap := (alike_insert_comm c t hrow).insertAll c rest k
    exact hswap.trans (ih hrest (t.insert c row) k)

theorem alike_insertAll_comm (c : ConflictClause ρ key) {news others : List ρ}
    (hne : ∀ new ∈ news, ∀ other ∈ others, key new ≠ key other) (t : Table ρ key) :
    Alike ((t.insertAll c news).insertAll c others) ((t.insertAll c others).insertAll c news) := by
  induction news generalizing t with
  | nil => exact fun k => rfl
  | cons new rest ih =>
    obtain ⟨hnew, hrest⟩ := List.forall_mem_cons.mp hne
    intro k
    have hswap := (alike_insertAll_insert c hnew t).insertAll c rest k
    exact (ih hrest (t.insert c new) k).trans hswap

end Tables

section Criteria

variable {Input ρ κ : Type} {key : ρ → κ} [DecidableEq κ]

/-- A property of the row a statement writes and the table it goes to: it holds of the row
and the table it is computed from, and survives the row of a statement that is apart. -/
structure Criterion (c : ConflictClause ρ key) (st : Statement ρ key Input)
    (apart : Input → Input → Prop) where
  Fits : Table ρ key → Input → ρ → Prop
  fits_alike : ∀ {t t'} {input row}, Alike t t' → Fits t input row → Fits t' input row
  fits_row : ∀ t input, Fits t input (st.row t.rows input)
  fits_insert : ∀ {t input row input'} {row' : ρ}, Fits t input row → key row' = st.keyOf input' →
    apart input' input → Fits (t.insert c row') input row

variable {c : ConflictClause ρ key} {st : Statement ρ key Input} {apart : Input → Input → Prop}

/-- The table that rows sent, upserted one after another, leave. -/
def settle (c : ConflictClause ρ key) (t : Table ρ key) (sent : List (Sent Input ρ)) :
    Table ρ key :=
  t.insertAll c (sent.map Sent.row)

theorem settle_append (t : Table ρ key) (sent more : List (Sent Input ρ)) :
    settle c t (sent ++ more) = settle c (settle c t sent) more := by
  unfold settle Table.insertAll
  rw [List.map_append, List.foldl_append]

/-- Rows that may be upserted one after another: each takes the branch it should, under its
input's key, and fits the table the ones before it leave. -/
inductive Fitting (cr : Criterion c st apart) : Table ρ key → List (Sent Input ρ) → Prop
  | nil (t : Table ρ key) : Fitting cr t []
  | cons {t : Table ρ key} {s : Sent Input ρ} {rest : List (Sent Input ρ)}
      (hnew : s.isNew = true ↔ t.find (key s.row) = none) (hkey : key s.row = st.keyOf s.input)
      (hfits : cr.Fits t s.input s.row) (hrest : Fitting cr (t.insert c s.row) rest) :
      Fitting cr t (s :: rest)

variable {cr : Criterion c st apart}

theorem apply_eq {t : Table ρ key} {s : Sent Input ρ}
    (hnew : s.isNew = true ↔ t.find (key s.row) = none) :
    s.apply c t.rows = (t.insert c s.row).rows := by
  unfold Sent.apply
  by_cases hnone : t.find (key s.row) = none
  · have hfree : ¬ ∃ r ∈ t.rows, key r = key s.row := fun hrow =>
      (Table.find_eq_none_iff t _).mp hnone hrow.choose hrow.choose_spec.1 hrow.choose_spec.2
    rw [if_pos (hnew.mpr hnone), Table.rows_insert_of_not_exists c hfree]
  · obtain ⟨old, hold⟩ := Option.ne_none_iff_exists'.mp hnone
    have hstored : ∃ r ∈ t.rows, key r = key s.row :=
      ⟨old, (Table.find_eq_some_iff t _ _).mp hold⟩
    rw [if_neg (mt hnew.mp hnone), Table.rows_insert_of_exists c hstored]

/-- Rows that fit do to the rows what they do upserted one after another. -/
theorem Fitting.foldl_apply {t : Table ρ key} {sent : List (Sent Input ρ)} (h : Fitting cr t sent) :
    sent.foldl (Sent.apply c) t.rows = (settle c t sent).rows := by
  induction h with
  | nil => rfl
  | cons hnew _ _ _ ih =>
    rw [List.foldl_cons, apply_eq hnew]
    exact ih

theorem Fitting.append {t : Table ρ key} {sent more : List (Sent Input ρ)} (h : Fitting cr t sent)
    (hmore : Fitting cr (settle c t sent) more) : Fitting cr t (sent ++ more) := by
  induction h with
  | nil => exact hmore
  | cons hnew hkey hfits _ ih => exact Fitting.cons hnew hkey hfits (ih hmore)

theorem Fitting.alike {t t' : Table ρ key} {sent : List (Sent Input ρ)} (h : Fitting cr t sent)
    (ht : Alike t t') : Fitting cr t' sent := by
  induction h generalizing t' with
  | nil => exact Fitting.nil t'
  | cons hnew hkey hfits _ ih =>
    refine Fitting.cons (hnew.trans ?_) hkey (cr.fits_alike ht hfits) (ih (ht.insert c _))
    rw [ht]

/-- Every row of the list is under its input's key. -/
theorem Fitting.key_row {t : Table ρ key} {sent : List (Sent Input ρ)} (h : Fitting cr t sent) :
    ∀ s ∈ sent, key s.row = st.keyOf s.input := by
  induction h with
  | nil => exact fun s hs => by cases hs
  | cons _ hkey _ _ ih => exact List.forall_mem_cons.mpr ⟨hkey, ih⟩

/-- Rows that fit still fit after a row of another key, sent by a statement that is apart. -/
theorem Fitting.insert {t : Table ρ key} {sent : List (Sent Input ρ)} (h : Fitting cr t sent)
    {input : Input} {row : ρ} (hrow : key row = st.keyOf input)
    (hne : ∀ s ∈ sent, key row ≠ key s.row) (hapart : ∀ s ∈ sent, apart input s.input) :
    Fitting cr (t.insert c row) sent := by
  induction h with
  | nil => exact Fitting.nil _
  | @cons t s rest hnew hkey hfits _ ih =>
    obtain ⟨hs, hrest⟩ := List.forall_mem_cons.mp hne
    obtain ⟨hsapart, hrestapart⟩ := List.forall_mem_cons.mp hapart
    refine Fitting.cons ?_ hkey (cr.fits_insert hfits hrow hsapart) ?_
    · rw [Table.find_insert_of_ne c t hs.symm]
      exact hnew
    · exact (ih hrest hrestapart).alike (alike_insert_comm c t hs.symm)

/-- And so after all rows of another transaction. -/
theorem Fitting.settle {t : Table ρ key} {sent others : List (Sent Input ρ)}
    (h : Fitting cr t sent) (hrows : ∀ o ∈ others, key o.row = st.keyOf o.input)
    (hne : ∀ o ∈ others, ∀ s ∈ sent, key o.row ≠ key s.row)
    (hapart : ∀ o ∈ others, ∀ s ∈ sent, apart o.input s.input) :
    Fitting cr (settle c t others) sent := by
  induction others generalizing t with
  | nil => exact h
  | cons o rest ih =>
    obtain ⟨horow, hrestrow⟩ := List.forall_mem_cons.mp hrows
    obtain ⟨hone, hrestne⟩ := List.forall_mem_cons.mp hne
    obtain ⟨hoapart, hrestapart⟩ := List.forall_mem_cons.mp hapart
    exact ih (h.insert horow hone hoapart) hrestrow hrestne hrestapart

theorem fits_settle {t : Table ρ key} {others : List (Sent Input ρ)} {input : Input} {row : ρ}
    (h : cr.Fits t input row) (hrows : ∀ o ∈ others, key o.row = st.keyOf o.input)
    (hapart : ∀ o ∈ others, apart o.input input) : cr.Fits (settle c t others) input row := by
  induction others generalizing t with
  | nil => exact h
  | cons o rest ih =>
    obtain ⟨horow, hrestrow⟩ := List.forall_mem_cons.mp hrows
    obtain ⟨hoapart, hrestapart⟩ := List.forall_mem_cons.mp hapart
    exact ih (cr.fits_insert h horow hoapart) hrestrow hrestapart

end Criteria

/-! ## The invariant -/

section Invariant

variable {ι Input ρ κ : Type} {key : ρ → κ} [DecidableEq κ]
  {c : ConflictClause ρ key} {st : Statement ρ key Input} {apart : Input → Input → Prop}

/-- The rows are what the log comes to, and what each open transaction has sent would fit
after it. -/
structure Inv (cr : Criterion c st apart) (t : Table ρ key) (w : World ι Input ρ) : Prop where
  log : Fitting cr t w.log
  rows : w.rows = (settle c t w.log).rows
  sent : ∀ i, (w.txn i).status = .active → Fitting cr (settle c t w.log) (w.txn i).sent
  pending : ∀ i input row, (w.txn i).status = .active → (w.txn i).pending = some (input, row) →
    key row = st.keyOf input ∧ cr.Fits (settle c t (w.log ++ (w.txn i).sent)) input row
  exclusive : ∀ i j, i ≠ j → (w.txn i).status = .active → (w.txn j).status = .active →
    ∀ s ∈ (w.txn i).sent, ∀ s' ∈ (w.txn j).sent, key s.row ≠ key s'.row

variable {cr : Criterion c st apart}

theorem inv_start (cr : Criterion c st apart) (t : Table ρ key) :
    Inv cr t (World.start t.rows : World ι Input ρ) where
  log := Fitting.nil t
  rows := rfl
  sent _ _ := Fitting.nil t
  pending i input row _ h := by cases h
  exclusive i j _ _ _ s hs := by cases hs

/-- What an open transaction sees is a table: what the log and its own rows come to. -/
theorem Inv.visible {t : Table ρ key} {w : World ι Input ρ} (h : Inv cr t w) {i : ι}
    (hactive : (w.txn i).status = .active) :
    w.visible c i = (settle c t (w.log ++ (w.txn i).sent)).rows := by
  rw [World.visible, h.rows, (h.sent i hactive).foldl_apply, settle_append]

/-- The branch a row takes is the one that the index decides. -/
theorem Inv.isNew_send {t : Table ρ key} {w : World ι Input ρ} (h : Inv cr t w) {i : ι}
    (hactive : (w.txn i).status = .active) (input : Input) (row : ρ) :
    (w.send c i input row).isNew = true ↔
      (settle c t (w.log ++ (w.txn i).sent)).find (key row) = none := by
  rw [Table.find_eq_none_iff, ← h.visible hactive]
  simp [World.send]

variable [DecidableEq ι]

theorem Inv.begin {t : Table ρ key} {w : World ι Input ρ} (h : Inv cr t w) {i : ι}
    (hactive : (w.txn i).status = .active) (input : Input) :
    Inv cr t
      (w.set i { w.txn i with pending := some (input, st.row (w.visible c i) input) }) := by
  have hsent : ∀ j, ((w.set i { w.txn i with
      pending := some (input, st.row (w.visible c i) input) }).txn j).sent = (w.txn j).sent := by
    intro j
    by_cases hj : j = i
    · rw [hj, set_txn_self]
    · rw [set_txn_of_ne w hj]
  have hstatus : ∀ j, ((w.set i { w.txn i with
      pending := some (input, st.row (w.visible c i) input) }).txn j).status =
        (w.txn j).status := by
    intro j
    by_cases hj : j = i
    · rw [hj, set_txn_self]
    · rw [set_txn_of_ne w hj]
  constructor
  case log => exact h.log
  case rows => exact h.rows
  case sent =>
    intro j hj
    rw [hsent]
    exact h.sent j (hstatus j ▸ hj)
  case pending =>
    intro j input' row hj hpending
    rw [hstatus] at hj
    rw [hsent]
    by_cases hji : j = i
    · rw [hji, set_txn_self] at hpending
      cases hpending
      rw [hji, h.visible hactive]
      exact ⟨st.key_row _ _, cr.fits_row _ _⟩
    · rw [set_txn_of_ne w hji] at hpending
      exact h.pending j input' row hj hpending
  case exclusive =>
    intro j k hne hj hk
    rw [hsent, hsent]
    exact h.exclusive j k hne (hstatus j ▸ hj) (hstatus k ▸ hk)

theorem Inv.finish {t : Table ρ key} {w : World ι Input ρ} (h : Inv cr t w) {i : ι}
    (hactive : (w.txn i).status = .active) {input : Input} {row : ρ}
    (hpending : (w.txn i).pending = some (input, row)) (hopen : ¬ w.Blocked key i (key row)) :
    Inv cr t
      (w.set i { w.txn i with
        sent := (w.txn i).sent ++ [w.send c i input row], pending := none }) := by
  obtain ⟨hkey, hfits⟩ := h.pending i input row hactive hpending
  -- No other open transaction has the key, or `i` would have waited.
  have hfree : ∀ j, j ≠ i → (w.txn j).status = .active →
      ∀ s ∈ (w.txn i).sent ++ [w.send c i input row], ∀ s' ∈ (w.txn j).sent,
        key s.row ≠ key s'.row := by
    intro j hji hj s hs s' hs'
    rcases List.mem_append.mp hs with hs | hs
    · exact h.exclusive i j hji.symm hactive hj s hs s' hs'
    · rw [List.mem_singleton.mp hs]
      exact fun he => hopen ⟨j, hji, hj, s', hs', he.symm⟩
  constructor
  case log => exact h.log
  case rows => exact h.rows
  case sent =>
    intro j hj
    by_cases hji : j = i
    · rw [hji, set_txn_self]
      refine (h.sent i hactive).append (Fitting.cons ?_ hkey ?_ (Fitting.nil _))
      · rw [← settle_append]
        exact h.isNew_send hactive input row
      · rw [← settle_append]
        exact hfits
    · rw [set_txn_of_ne w hji] at hj ⊢
      exact h.sent j hj
  case pending =>
    intro j input' row' hj hpending'
    by_cases hji : j = i
    · rw [hji, set_txn_self] at hpending'
      cases hpending'
    · rw [set_txn_of_ne w hji] at hj hpending' ⊢
      exact h.pending j input' row' hj hpending'
  case exclusive =>
    intro j k hne hj hk s hs s' hs'
    by_cases hji : j = i
    · have hki : k ≠ i := hji ▸ hne.symm
      rw [hji, set_txn_self] at hs
      rw [set_txn_of_ne w hki] at hk hs'
      exact hfree k hki hk s hs s' hs'
    · rw [set_txn_of_ne w hji] at hj hs
      by_cases hki : k = i
      · rw [hki, set_txn_self] at hs'
        exact (hfree j hji hj s' hs' s hs).symm
      · rw [set_txn_of_ne w hki] at hk hs'
        exact h.exclusive j k hne hj hk s hs s' hs'

/-- What another transaction commits comes before what `j` has sent. -/
theorem Inv.commit {t : Table ρ key} {w : World ι Input ρ} (h : Inv cr t w)
    (hapart : w.Apart apart) {i : ι} (hactive : (w.txn i).status = .active) :
    Inv cr t
      { w.set i { w.txn i with status := .committed } with
        rows := w.visible c i, log := w.log ++ (w.txn i).sent } := by
  have hopen : ∀ j, ((w.set i { w.txn i with status := .committed }).txn j).status = .active →
      j ≠ i := by
    intro j hj hji
    rw [hji, set_txn_self] at hj
    cases hj
  have hbegun : ∀ j, ∀ s ∈ (w.txn j).sent, s.input ∈ (w.txn j).begun := fun j s hs =>
    List.mem_append_left _ (List.mem_map_of_mem hs)
  have hkeys := (h.sent i hactive).key_row
  constructor
  case log => exact h.log.append (h.sent i hactive)
  case rows => exact h.visible hactive
  case sent =>
    intro j hj
    have hji := hopen j hj
    show Fitting cr (Upserts.settle c t (w.log ++ (w.txn i).sent))
      ((w.set i { w.txn i with status := .committed }).txn j).sent
    rw [settle_append]
    change ((w.set i { w.txn i with status := .committed }).txn j).status = .active at hj
    rw [set_txn_of_ne w hji] at hj ⊢
    exact (h.sent j hj).settle hkeys
      (fun o ho s hs => h.exclusive i j hji.symm hactive hj o ho s hs)
      (fun o ho s hs => hapart i j hji.symm hactive hj _ (hbegun i o ho) _ (hbegun j s hs))
  case pending =>
    intro j input row hj hpending
    have hji := hopen j hj
    change ((w.set i { w.txn i with status := .committed }).txn j).status = .active at hj
    change ((w.set i { w.txn i with status := .committed }).txn j).pending = _ at hpending
    show _ ∧ cr.Fits (Upserts.settle c t (w.log ++ (w.txn i).sent ++
      ((w.set i { w.txn i with status := .committed }).txn j).sent)) input row
    rw [set_txn_of_ne w hji] at hj hpending ⊢
    obtain ⟨hkey, hfits⟩ := h.pending j input row hj hpending
    refine ⟨hkey, ?_⟩
    have hlater : cr.Fits (Upserts.settle c (Upserts.settle c t (w.log ++ (w.txn j).sent))
        (w.txn i).sent) input row := by
      refine fits_settle hfits hkeys fun o ho => ?_
      refine hapart i j hji.symm hactive hj _ (hbegun i o ho) _ (List.mem_append_right _ ?_)
      rw [hpending]
      exact List.mem_singleton_self input
    rw [settle_append, settle_append]
    rw [settle_append] at hlater
    refine cr.fits_alike (alike_insertAll_comm c ?_ _) hlater
    intro new hnew other hother
    obtain ⟨s, hs, rfl⟩ := List.mem_map.mp hnew
    obtain ⟨o, ho, rfl⟩ := List.mem_map.mp hother
    exact h.exclusive j i hji hj hactive s hs o ho
  case exclusive =>
    intro j k hne hj hk
    have hji := hopen j hj
    have hki := hopen k hk
    change ((w.set i { w.txn i with status := .committed }).txn j).status = .active at hj
    change ((w.set i { w.txn i with status := .committed }).txn k).status = .active at hk
    show ∀ s ∈ ((w.set i { w.txn i with status := .committed }).txn j).sent,
      ∀ s' ∈ ((w.set i { w.txn i with status := .committed }).txn k).sent, key s.row ≠ key s'.row
    rw [set_txn_of_ne w hji] at hj ⊢
    rw [set_txn_of_ne w hki] at hk ⊢
    exact h.exclusive j k hne hj hk

theorem Inv.rollback {t : Table ρ key} {w : World ι Input ρ} (h : Inv cr t w) (i : ι) :
    Inv cr t (w.set i { w.txn i with status := .rolledBack }) := by
  have hopen : ∀ j, ((w.set i { w.txn i with status := .rolledBack }).txn j).status = .active →
      j ≠ i := by
    intro j hj hji
    rw [hji, set_txn_self] at hj
    cases hj
  constructor
  case log => exact h.log
  case rows => exact h.rows
  case sent =>
    intro j hj
    have hji := hopen j hj
    rw [set_txn_of_ne w hji] at hj ⊢
    exact h.sent j hj
  case pending =>
    intro j input row hj hpending
    have hji := hopen j hj
    rw [set_txn_of_ne w hji] at hj hpending ⊢
    exact h.pending j input row hj hpending
  case exclusive =>
    intro j k hne hj hk
    have hji := hopen j hj
    have hki := hopen k hk
    rw [set_txn_of_ne w hji] at hj ⊢
    rw [set_txn_of_ne w hki] at hk ⊢
    exact h.exclusive j k hne hj hk

theorem Inv.step {t : Table ρ key} {w w' : World ι Input ρ} (h : Inv cr t w)
    (hapart : w.Apart apart) (hstep : Step c st w w') : Inv cr t w' := by
  cases hstep with
  | begin i input hactive hidle => exact h.begin hactive input
  | finish i input row hactive hpending hopen => exact h.finish hactive hpending hopen
  | commit i hactive hidle => exact h.commit hapart hactive
  | rollback i hactive => exact h.rollback i

/-- Every run keeps the invariant. -/
theorem Reachable.inv (cr : Criterion c st apart) {t : Table ρ key} {w : World ι Input ρ}
    (h : Reachable c st apart (World.start t.rows) w) : Inv cr t w := by
  have hboth : Inv cr t w ∧ w.Apart apart := by
    induction h with
    | refl => exact ⟨inv_start cr t, fun i j _ _ _ a ha => by cases ha⟩
    | tail _ hstep ih => exact ⟨ih.1.step ih.2 hstep.1, hstep.2⟩
  exact hboth.1

end Invariant

end Upserts
end Transactions
