import QuantPlatform.Transactions.ReadCommitted

namespace QuantPlatform
namespace Db

open Transactions

/-- Where a call of `get_or_insert` is. -/
inductive Pc
  | before
  | lookup
  | beginNested
  | insert
  | release (newId : Nat)
  | rollbackTo (ofKey : Bool)
  | recover (ofKey : Bool)
  | returned (id : Nat) (created : Bool)
  | raised (ofKey : Bool)
  deriving DecidableEq, Repr

/-- `get_or_insert`.  The exception it may raise again is the one it caught. -/
def getOrInsert : Client Pc where
  call
    | .before => some .lookup
    | _ => none
  command
    | .lookup => some .select
    | .beginNested => some .savepoint
    | .insert => some .insert
    | .release _ => some .release
    | .rollbackTo _ => some .rollbackTo
    | .recover _ => some .select
    | _ => none
  resume
    | .lookup, .found (some existing) => .returned existing false
    | .lookup, .found none => .beginNested
    | .beginNested, .done => .insert
    | .insert, .inserted newId => .release newId
    | .insert, .integrityError ofKey => .rollbackTo ofKey
    | .release newId, .done => .returned newId true
    | .rollbackTo ofKey, .done => .recover ofKey
    | .recover _, .found (some existing) => .returned existing false
    | .recover ofKey, .found none => .raised ofKey
    | pc, _ => pc

section Local

variable {Write : Type}

/-- What holds of a transaction wherever its call is, given the ids of the rows
committed so far. -/
def CallInv (committedIds : List Nat) (t : Txn Pc Write) : Prop :=
  match t.client with
  | .before => rowIds t.writes = [] ∧ t.failed = false
  | .lookup | .beginNested =>
      rowIds t.writes = [] ∧ t.failed = false ∧ t.beforeCall = t.writes
  | .insert =>
      rowIds t.writes = [] ∧ t.failed = false ∧ t.beforeCall = t.writes ∧
        t.savepoints.head? = some t.writes.length
  | .release newId => rowIds t.writes = [newId] ∧ t.failed = false ∧ t.beforeCall <+: t.writes
  | .rollbackTo ofKey =>
      rowIds t.writes = [] ∧ t.beforeCall = t.writes ∧
        t.savepoints.head? = some t.writes.length ∧ (ofKey = true → committedIds ≠ [])
  | .recover ofKey =>
      rowIds t.writes = [] ∧ t.failed = false ∧ t.beforeCall = t.writes ∧
        (ofKey = true → committedIds ≠ [])
  | .returned id created =>
      t.failed = false ∧ t.beforeCall <+: t.writes ∧
        if created then rowIds t.writes = [id] else rowIds t.writes = [] ∧ id ∈ committedIds
  | .raised ofKey =>
      rowIds t.writes = [] ∧ t.failed = false ∧ t.beforeCall <+: t.writes ∧ ofKey = false

/-- More rows committed leave it true. -/
theorem CallInv.mono {ids ids' : List Nat} (hsub : ids ⊆ ids') {t : Txn Pc Write}
    (h : CallInv ids t) : CallInv ids' t := by
  have hne : ids ≠ [] → ids' ≠ [] := by
    intro hids hnil
    rw [hnil, List.subset_nil] at hsub
    exact hids hsub
  cases hpc : t.client with
  | returned id created =>
    simp only [CallInv, hpc] at h ⊢
    refine ⟨h.1, h.2.1, ?_⟩
    cases created with
    | true => exact h.2.2
    | false => exact ⟨h.2.2.1, hsub h.2.2.2⟩
  | rollbackTo ofKey =>
    simp only [CallInv, hpc] at h ⊢
    exact ⟨h.1, h.2.1, h.2.2.1, fun hkey => hne (h.2.2.2 hkey)⟩
  | recover ofKey =>
    simp only [CallInv, hpc] at h ⊢
    exact ⟨h.1, h.2.1, h.2.2.1, fun hkey => hne (h.2.2.2 hkey)⟩
  | _ => simpa only [CallInv, hpc] using h

end Local

section Calls

variable {ι Write : Type} {w : World ι Pc Write} {i : ι}

/-- A command of the call, answered, keeps what holds of its transaction. -/
theorem CallInv.resume {command : Command} {reply : Reply} {t : Txn Pc Write}
    (h : CallInv (rowIds w.committed) (w.txn i))
    (hcommand : getOrInsert.command (w.txn i).client = some command)
    (hexecutes : Executes w i command reply t) :
    CallInv (rowIds w.committed) { t with client := getOrInsert.resume t.client reply } := by
  have hvisible : rowIds (w.txn i).writes = [] → rowIds (w.visible i) = rowIds w.committed := by
    intro hnone
    rw [World.visible, rowIds_append, hnone, List.append_nil]
  cases hpc : (w.txn i).client with
  | before =>
    simp [getOrInsert, hpc] at hcommand
  | lookup =>
    simp only [getOrInsert, hpc, Option.some.injEq] at hcommand
    subst hcommand
    simp only [CallInv, hpc] at h
    obtain ⟨hnone, hfit, hbefore⟩ := h
    cases hexecutes with
    | selectFound id hid =>
      rw [hvisible hnone] at hid
      simp only [CallInv, getOrInsert, hpc]
      exact ⟨hfit, hbefore ▸ List.prefix_refl _, hnone, hid⟩
    | selectNone _ =>
      simp only [CallInv, getOrInsert, hpc]
      exact ⟨hnone, hfit, hbefore⟩
  | beginNested =>
    simp only [getOrInsert, hpc, Option.some.injEq] at hcommand
    subst hcommand
    simp only [CallInv, hpc] at h
    obtain ⟨hnone, hfit, hbefore⟩ := h
    cases hexecutes with
    | savepoint =>
      simp only [CallInv, getOrInsert, hpc]
      exact ⟨hnone, hfit, hbefore, rfl⟩
  | insert =>
    simp only [getOrInsert, hpc, Option.some.injEq] at hcommand
    subst hcommand
    simp only [CallInv, hpc] at h
    obtain ⟨hnone, hfit, hbefore, hsavepoint⟩ := h
    cases hexecutes with
    | insert hfree hopen =>
      simp only [CallInv, getOrInsert, hpc]
      refine ⟨by simp [hnone], hfit, ?_⟩
      rw [hbefore]
      exact List.prefix_append _ _
    | insertDuplicate htaken =>
      rw [hvisible hnone] at htaken
      simp only [CallInv, getOrInsert, hpc]
      exact ⟨hnone, hbefore, hsavepoint, fun _ => htaken⟩
    | insertOther =>
      simp only [CallInv, getOrInsert, hpc]
      exact ⟨hnone, hbefore, hsavepoint, fun hkey => by cases hkey⟩
  | release newId =>
    simp only [getOrInsert, hpc, Option.some.injEq] at hcommand
    subst hcommand
    simp only [CallInv, hpc] at h
    obtain ⟨hrow, hfit, hbefore⟩ := h
    cases hexecutes with
    | release kept outer _ =>
      simp only [CallInv, getOrInsert, hpc]
      exact ⟨hfit, hbefore, hrow⟩
  | rollbackTo ofKey =>
    simp only [getOrInsert, hpc, Option.some.injEq] at hcommand
    subst hcommand
    simp only [CallInv, hpc] at h
    obtain ⟨hnone, hbefore, hsavepoint, hkey⟩ := h
    cases hexecutes with
    | rollbackTo kept outer hsavepoints =>
      -- The savepoint keeps everything written before it.
      have hkept : kept = (w.txn i).writes.length := by
        rw [hsavepoints] at hsavepoint
        exact Option.some.inj hsavepoint
      simp only [CallInv, getOrInsert, hpc, hkept, List.take_length]
      exact ⟨hnone, trivial, hbefore, hkey⟩
  | recover ofKey =>
    simp only [getOrInsert, hpc, Option.some.injEq] at hcommand
    subst hcommand
    simp only [CallInv, hpc] at h
    obtain ⟨hnone, hfit, hbefore, hkey⟩ := h
    cases hexecutes with
    | selectFound id hid =>
      rw [hvisible hnone] at hid
      simp only [CallInv, getOrInsert, hpc]
      exact ⟨hfit, hbefore ▸ List.prefix_refl _, hnone, hid⟩
    | selectNone hmissing =>
      rw [hvisible hnone] at hmissing
      simp only [CallInv, getOrInsert, hpc]
      refine ⟨hnone, hfit, hbefore ▸ List.prefix_refl _, ?_⟩
      cases ofKey with
      | false => rfl
      | true => exact absurd hmissing (hkey rfl)
  | returned id created =>
    simp [getOrInsert, hpc] at hcommand
  | raised ofKey =>
    simp [getOrInsert, hpc] at hcommand

/-- Writes of the transaction's own around the call do not disturb it. -/
theorem CallInv.write {ids : List Nat} {t : Txn Pc Write} (h : CallInv ids t)
    (hidle : getOrInsert.command t.client = none) (write : Write) :
    CallInv ids { t with writes := t.writes ++ [.other write] } := by
  have hrows : rowIds (t.writes ++ [.other write]) = rowIds t.writes := by simp
  cases hpc : t.client with
  | before =>
    simp only [CallInv, hpc] at h ⊢
    exact ⟨hrows.trans h.1, h.2⟩
  | returned id created =>
    simp only [CallInv, hpc] at h ⊢
    rw [hrows]
    exact ⟨h.1, h.2.1.trans (List.prefix_append _ _), h.2.2⟩
  | raised ofKey =>
    simp only [CallInv, hpc] at h ⊢
    exact ⟨hrows.trans h.1, h.2.1, h.2.2.1.trans (List.prefix_append _ _), h.2.2.2⟩
  | _ => simp [getOrInsert, hpc] at hidle

theorem CallInv.call {ids : List Nat} {t : Txn Pc Write} (h : CallInv ids t) {pc : Pc}
    (hcall : getOrInsert.call t.client = some pc) :
    CallInv ids { t with client := pc, beforeCall := t.writes } := by
  cases hpc : t.client with
  | before =>
    simp only [getOrInsert, hpc, Option.some.injEq] at hcall
    subst hcall
    simp only [CallInv, hpc] at h ⊢
    exact ⟨h.1, h.2, trivial⟩
  | _ => simp [getOrInsert, hpc] at hcall

/-- A row in an idle transaction is that of a call that created it. -/
theorem CallInv.returned_of_mem {ids : List Nat} {t : Txn Pc Write} (h : CallInv ids t)
    (hidle : getOrInsert.command t.client = none) {id : Nat} (hid : id ∈ rowIds t.writes) :
    t.client = .returned id true := by
  cases hpc : t.client with
  | before =>
    simp only [CallInv, hpc] at h
    rw [h.1] at hid
    cases hid
  | returned id' created =>
    simp only [CallInv, hpc] at h
    cases created with
    | true =>
      have hrow : rowIds t.writes = [id'] := h.2.2
      rw [hrow, List.mem_singleton] at hid
      rw [hid]
    | false =>
      have hnone : rowIds t.writes = [] := h.2.2.1
      rw [hnone] at hid
      cases hid
  | raised ofKey =>
    simp only [CallInv, hpc] at h
    rw [h.1] at hid
    cases hid
  | _ => simp [getOrInsert, hpc] at hidle

end Calls

section Election

variable {ι Write : Type} [DecidableEq ι]

structure ElectionInv (w : World ι Pc Write) : Prop where
  key : KeyInv w
  calls : ∀ i, CallInv (rowIds w.committed) (w.txn i)
  idle : ∀ i, (w.txn i).status = .committed → getOrInsert.command (w.txn i).client = none
  elected : ∀ id ∈ rowIds w.committed, ∃ i, (w.txn i).status = .committed ∧
    (w.txn i).client = .returned id true

omit [DecidableEq ι] in
theorem electionInv_of_initial {w : World ι Pc Write} (h : Initial Pc.before w) :
    ElectionInv w where
  key := h.keyInv
  calls i := by
    rw [h.fresh i]
    exact ⟨rfl, rfl⟩
  idle i _ := by
    rw [h.fresh i]
    rfl
  elected id hid := by
    rw [h.noRow] at hid
    cases hid

/-- A step of one transaction that commits nothing, and leaves what holds of its call. -/
theorem ElectionInv.of_set {w w' : World ι Pc Write} (hinv : ElectionInv w) (hkey : KeyInv w')
    {i : ι} (hactive : (w.txn i).status = .active) {t : Txn Pc Write}
    (htxn : w'.txn = (w.set i t).txn) (hcommitted : w'.committed = w.committed)
    (hstatus : t.status ≠ .committed) (hcall : CallInv (rowIds w.committed) t) :
    ElectionInv w' where
  key := hkey
  calls j := by
    rw [htxn, hcommitted]
    by_cases hj : j = i
    · rw [hj, set_txn_self]
      exact hcall
    · rw [set_txn_of_ne w hj]
      exact hinv.calls j
  idle j hj := by
    rw [htxn] at hj ⊢
    by_cases hji : j = i
    · rw [hji, set_txn_self] at hj
      exact absurd hj hstatus
    · rw [set_txn_of_ne w hji] at hj ⊢
      exact hinv.idle j hj
  elected id hid := by
    rw [hcommitted] at hid
    obtain ⟨j, hj, hreturned⟩ := hinv.elected id hid
    have hji : j ≠ i := by
      intro he
      rw [he, hactive] at hj
      cases hj
    refine ⟨j, ?_⟩
    rw [htxn, set_txn_of_ne w hji]
    exact ⟨hj, hreturned⟩

theorem ElectionInv.step {w w' : World ι Pc Write} (hinv : ElectionInv w)
    (h : Step getOrInsert w w') : ElectionInv w' := by
  have hkey := hinv.key.step h
  cases h with
  | write i write hactive _ hidle =>
    exact hinv.of_set hkey hactive rfl rfl (by simp [hactive]) ((hinv.calls i).write hidle write)
  | call i pc hactive _ hcall =>
    exact hinv.of_set hkey hactive rfl rfl (by simp [hactive]) ((hinv.calls i).call hcall)
  | run i command reply t hactive hcommand _ hexecutes =>
    refine hinv.of_set hkey hactive rfl rfl ?_ ((hinv.calls i).resume hcommand hexecutes)
    show t.status ≠ .committed
    rw [hexecutes.status_eq, hactive]
    decide
  | rollback i hactive =>
    exact hinv.of_set hkey hactive rfl rfl (by simp) (hinv.calls i)
  | commit i hactive _ hidle =>
    have hids : rowIds w.committed ⊆ rowIds (w.committed ++ (w.txn i).writes) := by
      rw [rowIds_append]
      exact List.subset_append_left _ _
    constructor
    case key => exact hkey
    case calls =>
      intro j
      by_cases hj : j = i
      · rw [hj]
        show CallInv _ ((w.set i _).txn i)
        rw [set_txn_self]
        exact (hinv.calls i).mono hids
      · show CallInv _ ((w.set i _).txn j)
        rw [set_txn_of_ne w hj]
        exact (hinv.calls j).mono hids
    case idle =>
      intro j hj
      by_cases hji : j = i
      · rw [hji]
        show getOrInsert.command ((w.set i _).txn i).client = none
        rw [set_txn_self]
        exact hidle
      · change ((w.set i _).txn j).status = _ at hj
        show getOrInsert.command ((w.set i _).txn j).client = none
        rw [set_txn_of_ne w hji] at hj ⊢
        exact hinv.idle j hj
    case elected =>
      intro id hid
      change id ∈ rowIds (w.committed ++ (w.txn i).writes) at hid
      rw [rowIds_append, List.mem_append] at hid
      rcases hid with hold | hnew
      · obtain ⟨j, hj, hreturned⟩ := hinv.elected id hold
        have hji : j ≠ i := by
          intro he
          rw [he, hactive] at hj
          cases hj
        refine ⟨j, ?_⟩
        show ((w.set i _).txn j).status = _ ∧ ((w.set i _).txn j).client = _
        rw [set_txn_of_ne w hji]
        exact ⟨hj, hreturned⟩
      · refine ⟨i, ?_⟩
        show ((w.set i _).txn i).status = _ ∧ ((w.set i _).txn i).client = _
        rw [set_txn_self]
        exact ⟨rfl, (hinv.calls i).returned_of_mem hidle hnew⟩

theorem electionInv_of_reachable {w₀ w : World ι Pc Write} (hstart : Initial Pc.before w₀)
    (h : Reachable getOrInsert w₀ w) : ElectionInv w := by
  induction h with
  | refl => exact electionInv_of_initial hstart
  | tail _ hstep ih => exact ih.step hstep

omit [DecidableEq ι] in
/-- A call that returned, in a transaction that committed, returned the committed row. -/
theorem ElectionInv.rowIds_eq {w : World ι Pc Write} (hinv : ElectionInv w) {i : ι} {id : Nat}
    {created : Bool} (hcommitted : (w.txn i).status = .committed)
    (hreturned : (w.txn i).client = .returned id created) : rowIds w.committed = [id] := by
  have hcall := hinv.calls i
  simp only [CallInv, hreturned] at hcall
  have hmem : id ∈ rowIds w.committed := by
    cases created with
    | true =>
      have hrow : rowIds (w.txn i).writes = [id] := hcall.2.2
      have hkept := rowIds_subset (hinv.key.kept i hcommitted)
      exact hkept (by rw [hrow]; exact List.mem_singleton_self id)
    | false => exact hcall.2.2.2
  have hle := hinv.key.committed_le
  obtain ⟨other, hother⟩ := List.length_eq_one_iff.mp
    (Nat.le_antisymm hle (List.length_pos_of_mem hmem))
  rw [hother, List.mem_singleton] at hmem
  rw [hother, hmem]

/-- Whatever the interleaving: at most one row with the key is committed; every
call that returned from a transaction that committed returned its id; of these
exactly one created it, if there are any; and a call that raises again failed for
another constraint and left what its transaction had written before, which a
commit makes permanent. -/
theorem getOrInsert_elects_one {start w : World ι Pc Write} (hstart : Initial Pc.before start)
    (h : Reachable getOrInsert start w) :
    (rowIds w.committed).length ≤ 1 ∧
    (∀ i id created, (w.txn i).status = .committed →
      (w.txn i).client = .returned id created → rowIds w.committed = [id]) ∧
    ((∃ i id created, (w.txn i).status = .committed ∧
        (w.txn i).client = .returned id created) →
      ∃! i, (w.txn i).status = .committed ∧ ∃ id, (w.txn i).client = .returned id true) ∧
    (∀ i ofKey, (w.txn i).client = .raised ofKey →
      ofKey = false ∧ (w.txn i).failed = false ∧ (w.txn i).beforeCall <+: (w.txn i).writes ∧
        ((w.txn i).status = .committed → (w.txn i).beforeCall ⊆ w.committed)) := by
  have hinv := electionInv_of_reachable hstart h
  refine ⟨hinv.key.committed_le, fun i id created => hinv.rowIds_eq, ?_, ?_⟩
  · intro hreturned
    obtain ⟨i, id, created, hcommitted, hpc⟩ := hreturned
    have hrow := hinv.rowIds_eq hcommitted hpc
    obtain ⟨j, hj, hjpc⟩ := hinv.elected id (by rw [hrow]; exact List.mem_singleton_self id)
    refine ⟨j, ⟨hj, id, hjpc⟩, ?_⟩
    intro k hk
    obtain ⟨hkcommitted, id', hkpc⟩ := hk
    -- Both wrote the one committed row, and an id is handed out once.
    have hwrote : ∀ l id', (w.txn l).client = .returned id' true →
        rowIds (w.txn l).writes = [id'] := by
      intro l id' hl
      have hcall := hinv.calls l
      simp only [CallInv, hl] at hcall
      exact hcall.2.2
    have hsame : [id'] = [id] := (hinv.rowIds_eq hkcommitted hkpc).symm.trans hrow
    obtain rfl : id' = id := List.singleton_inj.mp hsame
    refine hinv.key.owned k j id' ?_ ?_
    · rw [hwrote k id' hkpc]
      exact List.mem_singleton_self id'
    · rw [hwrote j id' hjpc]
      exact List.mem_singleton_self id'
  · intro i ofKey hpc
    have hcall := hinv.calls i
    simp only [CallInv, hpc] at hcall
    obtain ⟨_, hfit, hbefore, hother⟩ := hcall
    exact ⟨hother, hfit, hbefore, fun hcommitted =>
      List.Subset.trans hbefore.subset (hinv.key.kept i hcommitted)⟩

/-- Two transactions that have done nothing yet. -/
def opened : World Bool Pc Unit where
  committed := []
  nextId := 1
  txn _ := Txn.fresh .before

/-- Both callers look before either inserts; the second recovers the first's row. -/
theorem two_callers_elect_one :
    ∃ w, Reachable getOrInsert opened w ∧ (w.txn true).client = .returned 1 true ∧
      (w.txn false).client = .returned 1 false ∧ rowIds w.committed = [1] ∧
      ∃! i, (w.txn i).status = .committed ∧ ∃ id, (w.txn i).client = .returned id true := by
  have hopened : Reachable getOrInsert opened opened := .refl
  have hwinner := hopened.tail (.call _ true .lookup rfl rfl rfl)
    |>.tail (.run _ true .select (.found none) _ rfl rfl (.inl rfl) (.selectNone rfl))
    |>.tail (.run _ true .savepoint .done _ rfl rfl (.inl rfl) .savepoint)
  have hloser := hwinner.tail (.call _ false .lookup rfl rfl rfl)
    |>.tail (.run _ false .select (.found none) _ rfl rfl (.inl rfl) (.selectNone rfl))
    |>.tail (.run _ false .savepoint .done _ rfl rfl (.inl rfl) .savepoint)
  have hinserted := hloser.tail (.run _ true .insert (.inserted 1) _ rfl rfl (.inl rfl)
    (.insert rfl (by rintro ⟨_ | _, hne, _, hholds⟩; exacts [hholds rfl, hne rfl])))
  have hwon := hinserted.tail (.run _ true .release .done _ rfl rfl (.inl rfl) (.release _ _ rfl))
    |>.tail (.commit _ true rfl rfl rfl)
  have hlost := hwon.tail (.run _ false .insert (.integrityError true) _ rfl rfl (.inl rfl)
    (.insertDuplicate (by decide)))
  have hrecovered := hlost.tail
      (.run _ false .rollbackTo .done _ rfl rfl (.inr rfl) (.rollbackTo _ _ rfl))
    |>.tail (.run _ false .select (.found (some 1)) _ rfl rfl (.inl rfl)
      (.selectFound 1 (by decide)))
    |>.tail (.commit _ false rfl rfl rfl)
  have helected := getOrInsert_elects_one ⟨rfl, fun _ => rfl⟩ hrecovered
  exact ⟨_, hrecovered, rfl, rfl, helected.2.1 false 1 false rfl rfl,
    helected.2.2.1 ⟨false, 1, false, rfl, rfl⟩⟩

end Election

end Db
end QuantPlatform
