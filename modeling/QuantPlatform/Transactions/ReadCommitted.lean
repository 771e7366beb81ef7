/-
Concurrent transactions at READ COMMITTED under one unique key.

A transaction's writes are its own until it commits, and a `SELECT` sees the
committed rows and its own.  Of the rows of the table only those with one key are
told apart, by their ids; everything else a transaction writes is opaque.  An
`INSERT` of the key waits while another open transaction holds it, so it has no
step then; it fails once a row with the key is committed, and it may fail for a
constraint of its own.  A failed statement leaves its transaction fit for nothing
but a rollback, of the whole or to a savepoint.

What a transaction does is up to its client: a program that issues commands and
is told their replies.  Whatever the programs and their interleaving, at most one
row with the key is ever committed.
-/
import Mathlib.Data.List.Basic
import Mathlib.Logic.Function.Basic
import Mathlib.Logic.Relation

namespace Transactions

/-- A write: a row with the key, or anything else. -/
inductive Entry (Write : Type)
  | row (id : Nat)
  | other (write : Write)

inductive Command
  | select
  | insert
  | savepoint
  | release
  | rollbackTo
  deriving DecidableEq, Repr

/-- `integrityError ofKey` tells whether the key was the constraint violated. -/
inductive Reply
  | found (id : Option Nat)
  | inserted (id : Nat)
  | done
  | integrityError (ofKey : Bool)
  deriving DecidableEq, Repr

/-- A program: where its call begins, the command it waits on, and what it does
with the reply. -/
structure Client (σ : Type) where
  call : σ → Option σ
  command : σ → Option Command
  resume : σ → Reply → σ

inductive Status
  | active
  | committed
  | rolledBack
  deriving DecidableEq, Repr

/-- A transaction.  `beforeCall` remembers what it had written when the call
began; a savepoint, how many writes it keeps. -/
structure Txn (σ Write : Type) where
  client : σ
  status : Status
  writes : List (Entry Write)
  beforeCall : List (Entry Write)
  savepoints : List Nat
  failed : Bool

/-- A transaction that has done nothing yet. -/
def Txn.fresh {σ Write : Type} (client : σ) : Txn σ Write where
  client := client
  status := .active
  writes := []
  beforeCall := []
  savepoints := []
  failed := false

structure World (ι σ Write : Type) where
  committed : List (Entry Write)
  nextId : Nat
  txn : ι → Txn σ Write

section Rows

variable {Write : Type}

/-- The ids of the rows with the key. -/
def rowIds (entries : List (Entry Write)) : List Nat :=
  entries.filterMap fun
    | .row id => some id
    | .other _ => none

@[simp] theorem rowIds_nil : rowIds ([] : List (Entry Write)) = [] := rfl

@[simp] theorem rowIds_append (xs ys : List (Entry Write)) :
    rowIds (xs ++ ys) = rowIds xs ++ rowIds ys := List.filterMap_append

@[simp] theorem rowIds_row (id : Nat) : rowIds [(Entry.row id : Entry Write)] = [id] := rfl

@[simp] theorem rowIds_other (write : Write) : rowIds [Entry.other write] = [] := rfl

theorem rowIds_take_sublist (n : Nat) (xs : List (Entry Write)) :
    (rowIds (xs.take n)).Sublist (rowIds xs) :=
  (List.take_sublist n xs).filterMap _

theorem rowIds_subset {xs ys : List (Entry Write)} (h : xs ⊆ ys) : rowIds xs ⊆ rowIds ys := by
  intro id hid
  obtain ⟨entry, hentry, hrow⟩ := List.mem_filterMap.mp hid
  exact List.mem_filterMap.mpr ⟨entry, h hentry, hrow⟩

end Rows

section Commands

variable {ι σ Write : Type}

/-- What a `SELECT` of the transaction sees. -/
def World.visible (w : World ι σ Write) (i : ι) : List (Entry Write) :=
  w.committed ++ (w.txn i).writes

/-- Another open transaction holds the key. -/
def World.Blocked (w : World ι σ Write) (i : ι) : Prop :=
  ∃ j, j ≠ i ∧ (w.txn j).status = .active ∧ rowIds (w.txn j).writes ≠ []

/-- How the database may answer a command, and what becomes of the transaction. -/
inductive Executes (w : World ι σ Write) (i : ι) : Command → Reply → Txn σ Write → Prop
  | selectFound (id : Nat) (hvisible : id ∈ rowIds (w.visible i)) :
      Executes w i .select (.found (some id)) (w.txn i)
  | selectNone (hvisible : rowIds (w.visible i) = []) :
      Executes w i .select (.found none) (w.txn i)
  | insert (hfree : rowIds (w.visible i) = []) (hopen : ¬ w.Blocked i) :
      Executes w i .insert (.inserted w.nextId)
        { w.txn i with writes := (w.txn i).writes ++ [.row w.nextId] }
  | insertDuplicate (htaken : rowIds (w.visible i) ≠ []) :
      Executes w i .insert (.integrityError true) { w.txn i with failed := true }
  | insertOther :
      Executes w i .insert (.integrityError false) { w.txn i with failed := true }
  | savepoint :
      Executes w i .savepoint .done
        { w.txn i with savepoints := (w.txn i).writes.length :: (w.txn i).savepoints }
  | release (kept : Nat) (outer : List Nat) (hsavepoints : (w.txn i).savepoints = kept :: outer) :
      Executes w i .release .done { w.txn i with savepoints := outer }
  | rollbackTo (kept : Nat) (outer : List Nat)
      (hsavepoints : (w.txn i).savepoints = kept :: outer) :
      Executes w i .rollbackTo .done
        { w.txn i with writes := (w.txn i).writes.take kept, failed := false }

theorem Executes.status_eq {w : World ι σ Write} {i : ι} {command : Command} {reply : Reply}
    {t : Txn σ Write} (h : Executes w i command reply t) : t.status = (w.txn i).status := by
  cases h <;> rfl

/-- The identity sequence moves on with every `INSERT`, also with one that fails. -/
def nextIdAfter (command : Command) (nextId : Nat) : Nat :=
  if command = .insert then nextId + 1 else nextId

theorem le_nextIdAfter (command : Command) (n : Nat) : n ≤ nextIdAfter command n := by
  unfold nextIdAfter
  split
  · exact Nat.le_succ n
  · exact Nat.le_refl n

/-- No row with the key, and no transaction has begun to work. -/
structure Initial (start : σ) (w : World ι σ Write) : Prop where
  noRow : rowIds w.committed = []
  fresh : ∀ i, w.txn i = Txn.fresh start

/-- A transaction other than `i` that holds the key blocks `i`. -/
theorem World.blocked_of_ne {w : World ι σ Write} {i j : ι} (hne : j ≠ i)
    (hactive : (w.txn j).status = .active) (hholds : rowIds (w.txn j).writes ≠ []) :
    w.Blocked i := ⟨j, hne, hactive, hholds⟩

end Commands

section Step

variable {ι σ Write : Type} [DecidableEq ι]

def World.set (w : World ι σ Write) (i : ι) (t : Txn σ Write) : World ι σ Write :=
  { w with txn := Function.update w.txn i t }

/-- One step of one transaction. -/
inductive Step (client : Client σ) : World ι σ Write → World ι σ Write → Prop
  | write (w : World ι σ Write) (i : ι) (write : Write) (hactive : (w.txn i).status = .active)
      (hfit : (w.txn i).failed = false) (hidle : client.command (w.txn i).client = none) :
      Step client w
        (w.set i { w.txn i with writes := (w.txn i).writes ++ [.other write] })
  | call (w : World ι σ Write) (i : ι) (state : σ) (hactive : (w.txn i).status = .active)
      (hfit : (w.txn i).failed = false) (hcall : client.call (w.txn i).client = some state) :
      Step client w
        (w.set i { w.txn i with client := state, beforeCall := (w.txn i).writes })
  | run (w : World ι σ Write) (i : ι) (command : Command) (reply : Reply) (t : Txn σ Write)
      (hactive : (w.txn i).status = .active)
      (hcommand : client.command (w.txn i).client = some command)
      (hfit : (w.txn i).failed = false ∨ command = .rollbackTo)
      (hexecutes : Executes w i command reply t) :
      Step client w
        { w.set i { t with client := client.resume t.client reply } with
          nextId := nextIdAfter command w.nextId }
  | commit (w : World ι σ Write) (i : ι) (hactive : (w.txn i).status = .active)
      (hfit : (w.txn i).failed = false) (hidle : client.command (w.txn i).client = none) :
      Step client w
        { w.set i { w.txn i with status := .committed } with
          committed := w.committed ++ (w.txn i).writes }
  | rollback (w : World ι σ Write) (i : ι) (hactive : (w.txn i).status = .active) :
      Step client w (w.set i { w.txn i with status := .rolledBack })

/-- Any finite interleaving. -/
abbrev Reachable (client : Client σ) : World ι σ Write → World ι σ Write → Prop :=
  Relation.ReflTransGen (Step client)

/-! ## What a step can do to the key -/

@[simp] theorem set_txn_self (w : World ι σ Write) (i : ι) (t : Txn σ Write) :
    (w.set i t).txn i = t := by
  unfold World.set
  exact Function.update_self ..

theorem set_txn_of_ne (w : World ι σ Write) {i j : ι} (h : j ≠ i) (t : Txn σ Write) :
    (w.set i t).txn j = w.txn j := by
  unfold World.set
  exact Function.update_of_ne h ..

@[simp] theorem set_committed (w : World ι σ Write) (i : ι) (t : Txn σ Write) :
    (w.set i t).committed = w.committed := rfl

@[simp] theorem set_nextId (w : World ι σ Write) (i : ι) (t : Txn σ Write) :
    (w.set i t).nextId = w.nextId := rfl

/-- What a step of transaction `i` does to the rows with the key: it writes none,
or the one free to write, or commits its own. -/
inductive Change (w w' : World ι σ Write) (i : ι) : Prop
  | kept (hrows : (rowIds (w'.txn i).writes).Sublist (rowIds (w.txn i).writes))
      (hcommitted : w'.committed = w.committed) (hstatus : (w'.txn i).status ≠ .committed)
  | inserted (hfree : rowIds (w.visible i) = []) (hopen : ¬ w.Blocked i)
      (hrows : rowIds (w'.txn i).writes = [w.nextId]) (hnext : w.nextId < w'.nextId)
      (hcommitted : w'.committed = w.committed) (hstatus : (w'.txn i).status ≠ .committed)
  | committed (hwrites : (w'.txn i).writes = (w.txn i).writes)
      (hcommitted : w'.committed = w.committed ++ (w.txn i).writes)
      (hstatus : (w'.txn i).status = .committed)

theorem Step.change {client : Client σ} {w w' : World ι σ Write} (h : Step client w w') :
    ∃ i, (w.txn i).status = .active ∧ (∀ j, j ≠ i → w'.txn j = w.txn j) ∧
      w.nextId ≤ w'.nextId ∧ Change w w' i := by
  cases h with
  | write i write hactive =>
    refine ⟨i, hactive, fun j hj => set_txn_of_ne w hj _, Nat.le_refl _, Change.kept ?_ rfl ?_⟩
    · simp
    · simp [hactive]
  | call i state hactive =>
    refine ⟨i, hactive, fun j hj => set_txn_of_ne w hj _, Nat.le_refl _, Change.kept ?_ rfl ?_⟩
    · simp
    · simp [hactive]
  | commit i hactive =>
    refine ⟨i, hactive, fun j hj => set_txn_of_ne w hj _, Nat.le_refl _, Change.committed ?_ rfl ?_⟩
    · simp
    · simp
  | rollback i hactive =>
    refine ⟨i, hactive, fun j hj => set_txn_of_ne w hj _, Nat.le_refl _, Change.kept ?_ rfl ?_⟩
    · simp
    · simp
  | run i command reply t hactive hcommand hfit hexecutes =>
    refine ⟨i, hactive, fun j hj => set_txn_of_ne w hj _, le_nextIdAfter command w.nextId, ?_⟩
    cases hexecutes with
    | insert hfree hopen =>
      have hown : rowIds (w.txn i).writes = [] := by
        have hvisible := hfree
        rw [World.visible, rowIds_append, List.append_eq_nil_iff] at hvisible
        exact hvisible.2
      refine Change.inserted hfree hopen ?_ (Nat.lt_succ_self _) rfl ?_
      · simp [World.set, hown]
      · simp [World.set, hactive]
    | rollbackTo kept outer hsavepoints =>
      refine Change.kept ?_ rfl ?_
      · simpa [World.set] using rowIds_take_sublist kept (w.txn i).writes
      · simp [World.set, hactive]
    | selectFound => exact Change.kept (by simp [World.set]) rfl (by simp [World.set, hactive])
    | selectNone => exact Change.kept (by simp [World.set]) rfl (by simp [World.set, hactive])
    | insertDuplicate => exact Change.kept (by simp [World.set]) rfl (by simp [World.set, hactive])
    | insertOther => exact Change.kept (by simp [World.set]) rfl (by simp [World.set, hactive])
    | savepoint => exact Change.kept (by simp [World.set]) rfl (by simp [World.set, hactive])
    | release => exact Change.kept (by simp [World.set]) rfl (by simp [World.set, hactive])

end Step

/-! ## The key is held once -/

section Key

variable {ι σ Write : Type}

/-- Of the rows with the key at most one is committed; an open transaction holds
one only while none is committed, and no other holds one; ids are handed out once. -/
structure KeyInv (w : World ι σ Write) : Prop where
  committed_le : (rowIds w.committed).length ≤ 1
  own_le : ∀ i, (rowIds (w.txn i).writes).length ≤ 1
  exclusive : ∀ i, (w.txn i).status = .active → rowIds (w.txn i).writes ≠ [] →
    rowIds w.committed = [] ∧ ¬ w.Blocked i
  fresh : ∀ i, ∀ id ∈ rowIds (w.txn i).writes, id < w.nextId
  owned : ∀ i j id, id ∈ rowIds (w.txn i).writes → id ∈ rowIds (w.txn j).writes → i = j
  kept : ∀ i, (w.txn i).status = .committed → (w.txn i).writes ⊆ w.committed

theorem Initial.keyInv {start : σ} {w : World ι σ Write} (h : Initial start w) : KeyInv w := by
  have hwrites : ∀ i, rowIds (w.txn i).writes = [] := fun i => by rw [h.fresh i]; rfl
  constructor
  case committed_le => simp [h.noRow]
  case own_le => exact fun i => by simp [hwrites i]
  case exclusive => exact fun i _ hne => absurd (hwrites i) hne
  case fresh => exact fun i id hid => by simp [hwrites i] at hid
  case owned => exact fun i j id hid _ => by simp [hwrites i] at hid
  case kept => exact fun i hstatus => by rw [h.fresh i] at hstatus; cases hstatus

/-- A step that commits nothing leaves what was committed kept. -/
theorem KeyInv.kept_of_open {w w' : World ι σ Write} (hinv : KeyInv w) {i : ι}
    (hothers : ∀ j, j ≠ i → w'.txn j = w.txn j) (hcommitted : w'.committed = w.committed)
    (hstatus : (w'.txn i).status ≠ .committed) (j : ι) (hj : (w'.txn j).status = .committed) :
    (w'.txn j).writes ⊆ w'.committed := by
  by_cases hji : j = i
  · rw [hji] at hj
    exact absurd hj hstatus
  · rw [hothers j hji] at hj ⊢
    rw [hcommitted]
    exact hinv.kept j hj

/-- The rows of the transactions after a step that wrote none. -/
theorem KeyInv.step_kept {w w' : World ι σ Write} (hinv : KeyInv w) {i : ι}
    (hactive : (w.txn i).status = .active) (hothers : ∀ j, j ≠ i → w'.txn j = w.txn j)
    (hnext : w.nextId ≤ w'.nextId)
    (hrows : (rowIds (w'.txn i).writes).Sublist (rowIds (w.txn i).writes))
    (hcommitted : w'.committed = w.committed) (hstatus : (w'.txn i).status ≠ .committed) :
    KeyInv w' := by
  have hsub : ∀ j, (rowIds (w'.txn j).writes).Sublist (rowIds (w.txn j).writes) := by
    intro j
    by_cases hj : j = i
    · rw [hj]
      exact hrows
    · rw [hothers j hj]
  have hholds : ∀ j, rowIds (w'.txn j).writes ≠ [] → rowIds (w.txn j).writes ≠ [] := by
    intro j hne hnil
    have hsub' := hsub j
    rw [hnil, List.sublist_nil] at hsub'
    exact hne hsub'
  have hopen : ∀ j, (w'.txn j).status = .active → (w.txn j).status = .active := by
    intro j hj
    by_cases hji : j = i
    · rw [hji]
      exact hactive
    · rw [hothers j hji] at hj
      exact hj
  constructor
  case committed_le =>
    rw [hcommitted]
    exact hinv.committed_le
  case own_le => exact fun j => Nat.le_trans (hsub j).length_le (hinv.own_le j)
  case exclusive =>
    intro j hj hne
    obtain ⟨hnone, hunblocked⟩ := hinv.exclusive j (hopen j hj) (hholds j hne)
    refine ⟨hcommitted ▸ hnone, fun hblocked => hunblocked ?_⟩
    obtain ⟨k, hkj, hk, hkne⟩ := hblocked
    exact World.blocked_of_ne hkj (hopen k hk) (hholds k hkne)
  case fresh =>
    exact fun j id hid => Nat.lt_of_lt_of_le (hinv.fresh j id ((hsub j).subset hid)) hnext
  case owned =>
    exact fun j k id hj hk => hinv.owned j k id ((hsub j).subset hj) ((hsub k).subset hk)
  case kept => exact hinv.kept_of_open hothers hcommitted hstatus

/-- The rows after an `INSERT` that found the key free. -/
theorem KeyInv.step_inserted {w w' : World ι σ Write} (hinv : KeyInv w) {i : ι}
    (hothers : ∀ j, j ≠ i → w'.txn j = w.txn j) (hfree : rowIds (w.visible i) = [])
    (hopen : ¬ w.Blocked i) (hrows : rowIds (w'.txn i).writes = [w.nextId])
    (hnext : w.nextId < w'.nextId) (hcommitted : w'.committed = w.committed)
    (hstatus : (w'.txn i).status ≠ .committed) : KeyInv w' := by
  rw [World.visible, rowIds_append, List.append_eq_nil_iff] at hfree
  -- No other open transaction holds the key, or `i` would have waited.
  have hothersFree : ∀ j, j ≠ i → (w.txn j).status = .active → rowIds (w.txn j).writes = [] := by
    intro j hj hactive
    by_contra hne
    exact hopen (World.blocked_of_ne hj hactive hne)
  have howner : ∀ j, w.nextId ∈ rowIds (w'.txn j).writes → j = i := by
    intro j hj
    by_contra hji
    rw [hothers j hji] at hj
    exact absurd (hinv.fresh j _ hj) (Nat.lt_irrefl _)
  constructor
  case committed_le =>
    rw [hcommitted]
    exact hinv.committed_le
  case own_le =>
    intro j
    by_cases hj : j = i
    · rw [hj, hrows]
      exact Nat.le_refl 1
    · rw [hothers j hj]
      exact hinv.own_le j
  case exclusive =>
    intro j hj hne
    by_cases hji : j = i
    · refine ⟨hcommitted ▸ hfree.1, fun hblocked => ?_⟩
      obtain ⟨k, hkj, hk, hkne⟩ := hblocked
      rw [hji] at hkj
      rw [hothers k hkj] at hk hkne
      exact hkne (hothersFree k hkj hk)
    · rw [hothers j hji] at hj hne
      exact absurd (hothersFree j hji hj) hne
  case fresh =>
    intro j id hid
    by_cases hj : j = i
    · rw [hj, hrows, List.mem_singleton] at hid
      rw [hid]
      exact hnext
    · rw [hothers j hj] at hid
      exact Nat.lt_trans (hinv.fresh j id hid) hnext
  case owned =>
    intro j k id hj hk
    by_cases hnew : id = w.nextId
    · rw [hnew] at hj hk
      rw [howner j hj, howner k hk]
    · -- An id handed out before is not that of the new row.
      have hold : ∀ l, id ∈ rowIds (w'.txn l).writes → id ∈ rowIds (w.txn l).writes := by
        intro l hl
        by_cases hli : l = i
        · rw [hli, hrows, List.mem_singleton] at hl
          exact absurd hl hnew
        · rw [hothers l hli] at hl
          exact hl
      exact hinv.owned j k id (hold j hj) (hold k hk)
  case kept => exact hinv.kept_of_open hothers hcommitted hstatus

/-- The rows after a commit. -/
theorem KeyInv.step_committed {w w' : World ι σ Write} (hinv : KeyInv w) {i : ι}
    (hactive : (w.txn i).status = .active) (hothers : ∀ j, j ≠ i → w'.txn j = w.txn j)
    (hnext : w.nextId ≤ w'.nextId) (hwrites : (w'.txn i).writes = (w.txn i).writes)
    (hcommitted : w'.committed = w.committed ++ (w.txn i).writes)
    (hstatus : (w'.txn i).status = .committed) : KeyInv w' := by
  have hsame : ∀ j, (w'.txn j).writes = (w.txn j).writes := by
    intro j
    by_cases hj : j = i
    · rw [hj]
      exact hwrites
    · rw [hothers j hj]
  have hne_of_active : ∀ j, (w'.txn j).status = .active → j ≠ i := by
    intro j hj hji
    rw [hji, hstatus] at hj
    cases hj
  constructor
  case committed_le =>
    rw [hcommitted, rowIds_append, List.length_append]
    by_cases hholds : rowIds (w.txn i).writes = []
    · rw [hholds]
      exact hinv.committed_le
    · rw [(hinv.exclusive i hactive hholds).1]
      simpa using hinv.own_le i
  case own_le =>
    intro j
    rw [hsame j]
    exact hinv.own_le j
  case exclusive =>
    intro j hj hne
    have hji := hne_of_active j hj
    rw [hothers j hji] at hj
    rw [hsame j] at hne
    obtain ⟨hnone, hunblocked⟩ := hinv.exclusive j hj hne
    -- The one that commits holds nothing, or it would have blocked `j`.
    have hfree : rowIds (w.txn i).writes = [] := by
      by_contra hholds
      exact hunblocked (World.blocked_of_ne (Ne.symm hji) hactive hholds)
    refine ⟨by rw [hcommitted, rowIds_append, hnone, hfree]; rfl, fun hblocked => hunblocked ?_⟩
    obtain ⟨k, hkj, hk, hkne⟩ := hblocked
    have hki := hne_of_active k hk
    rw [hothers k hki] at hk
    rw [hsame k] at hkne
    exact World.blocked_of_ne hkj hk hkne
  case fresh =>
    intro j id hid
    rw [hsame j] at hid
    exact Nat.lt_of_lt_of_le (hinv.fresh j id hid) hnext
  case owned =>
    intro j k id hj hk
    rw [hsame] at hj hk
    exact hinv.owned j k id hj hk
  case kept =>
    intro j hj
    rw [hsame j, hcommitted]
    by_cases hji : j = i
    · rw [hji]
      exact List.subset_append_right _ _
    · rw [hothers j hji] at hj
      exact List.Subset.trans (hinv.kept j hj) (List.subset_append_left _ _)

end Key

section Runs

variable {ι σ Write : Type} [DecidableEq ι]

theorem KeyInv.step {client : Client σ} {w w' : World ι σ Write} (hinv : KeyInv w)
    (h : Step client w w') : KeyInv w' := by
  obtain ⟨i, hactive, hothers, hnext, hchange⟩ := h.change
  cases hchange with
  | kept hrows hcommitted hstatus =>
    exact hinv.step_kept hactive hothers hnext hrows hcommitted hstatus
  | inserted hfree hopen hrows hlt hcommitted hstatus =>
    exact hinv.step_inserted hothers hfree hopen hrows hlt hcommitted hstatus
  | committed hwrites hcommitted hstatus =>
    exact hinv.step_committed hactive hothers hnext hwrites hcommitted hstatus

end Runs

end Transactions
