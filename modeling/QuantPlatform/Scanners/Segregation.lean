import QuantPlatform.Scanners.Persistence

namespace QuantPlatform
namespace Scanners

open Db Relational

def ScanCall.version (call : ScanCall) : String × String :=
  (call.strategyId, call.strategyVersion)

/-- One of the calls was accepted and wrote under the run. -/
def Wrote (calls : List ScanCall) (runId : Nat) (call : ScanCall) : Prop :=
  ∃ earlier later, calls = earlier ++ call :: later ∧ call.Accepted ∧
    call.runId (persistAll RunStore.empty earlier) = runId

/-- What a run of calls keeps apart, looking at the state it ends in and at its
last call. -/
structure Segregated (calls : List ScanCall) : Prop where
  runs_differ : ∀ r a, Wrote calls r a → ∀ s b, Wrote calls s b → a.version ≠ b.version → r ≠ s
  recorded : ∀ r a, Wrote calls r a → ∃ run ∈ (persistAll RunStore.empty calls).runs.rows,
    run.id = r ∧ run.strategyId = some a.strategyId ∧ run.strategyVersion = some a.strategyVersion
  signals_kept : ∀ earlier b, calls = earlier ++ [b] → ∀ r a, Wrote earlier r a →
    a.version ≠ b.version → ∀ signal : SignalRow, signal.modelRunId = r →
      (signal ∈ (persistAll RunStore.empty calls).signals.rows ↔
        signal ∈ (persistAll RunStore.empty earlier).signals.rows)
  run_kept : ∀ earlier b, calls = earlier ++ [b] → ∀ r a, Wrote earlier r a →
    a.version ≠ b.version → ∀ run : ModelRunRow, run.id = r →
      (run ∈ (persistAll RunStore.empty calls).runs.rows ↔
        run ∈ (persistAll RunStore.empty earlier).runs.rows)

/-- No two accepted calls give one key with different versions. -/
def OneVersionPerKey (calls : List ScanCall) : Prop :=
  ∀ a ∈ calls, a.Accepted → ∀ b ∈ calls, b.Accepted → ∀ key, a.idempotencyKey = some key →
    b.idempotencyKey = some key → a.version = b.version

theorem wrote_append_iff (calls : List ScanCall) (last : ScanCall) (r : Nat) (a : ScanCall) :
    Wrote (calls ++ [last]) r a ↔
      Wrote calls r a ∨
        (a = last ∧ last.Accepted ∧ last.runId (persistAll RunStore.empty calls) = r) := by
  constructor
  · intro h
    obtain ⟨earlier, later, heq, haccepted, hid⟩ := h
    rcases List.eq_nil_or_concat later with hnil | ⟨rest, final, hconcat⟩
    · subst hnil
      obtain ⟨hcalls, hlast⟩ := List.append_inj' heq rfl
      rw [List.cons.injEq] at hlast
      subst hcalls
      exact Or.inr ⟨hlast.1.symm, hlast.1 ▸ haccepted, hlast.1 ▸ hid⟩
    · subst hconcat
      have hsplit : calls ++ [last] = (earlier ++ a :: rest) ++ [final] := by
        rw [heq, List.append_assoc, List.concat_eq_append, List.cons_append]
      exact Or.inl ⟨earlier, rest, (List.append_inj' hsplit rfl).1, haccepted, hid⟩
  · intro h
    rcases h with ⟨earlier, later, heq, haccepted, hid⟩ | ⟨ha, haccepted, hid⟩
    · exact ⟨earlier, later ++ [last], by rw [heq, List.append_assoc, List.cons_append],
        haccepted, hid⟩
    · exact ⟨calls, [], by rw [ha], ha ▸ haccepted, ha ▸ hid⟩

theorem Wrote.mem {calls : List ScanCall} {r : Nat} {a : ScanCall} (h : Wrote calls r a) :
    a ∈ calls ∧ a.Accepted := by
  obtain ⟨earlier, later, heq, haccepted, _⟩ := h
  exact ⟨heq ▸ List.mem_append_right _ List.mem_cons_self, haccepted⟩

theorem exists_wrote {calls : List ScanCall} {a : ScanCall} (h : a ∈ calls)
    (haccepted : a.Accepted) : ∃ r, Wrote calls r a := by
  obtain ⟨earlier, later, heq⟩ := List.append_of_mem h
  exact ⟨_, earlier, later, heq, haccepted, rfl⟩

/-- Every accepted call has its run, under the call's key.  Every run records one
of the calls that wrote under it.  A call without a key has its run to itself. -/
structure Traced (calls : List ScanCall) : Prop where
  run_of : ∀ r a, Wrote calls r a → ∃ run ∈ (persistAll RunStore.empty calls).runs.rows,
    run.id = r ∧ run.idempotencyKey = a.idempotencyKey
  writer : ∀ run ∈ (persistAll RunStore.empty calls).runs.rows, ∃ a, Wrote calls run.id a ∧
    run.strategyId = some a.strategyId ∧ run.strategyVersion = some a.strategyVersion
  anonymous : ∀ r a b, Wrote calls r a → Wrote calls r b → a.idempotencyKey = none → a = b

theorem traced_nil : Traced [] := by
  have hnone : ∀ r a, ¬ Wrote [] r a := by
    intro r a h
    exact List.not_mem_nil h.mem.1
  constructor
  · exact fun r a h => absurd h (hnone r a)
  · intro run hrun
    cases hrun
  · exact fun r a _ h => absurd h (hnone r a)

/-- A call that shares a run with an earlier one shares its key. -/
theorem Traced.key_of_runId_eq {calls : List ScanCall} (h : Traced calls) {last a : ScanCall}
    {r : Nat} (ha : Wrote calls r a)
    (hid : last.runId (persistAll RunStore.empty calls) = r) :
    ∃ key, last.idempotencyKey = some key ∧ a.idempotencyKey = some key := by
  obtain ⟨run, hrun, hrid, hkey⟩ := h.run_of r a ha
  obtain ⟨key, hlast, hrunkey⟩ := last.key_of_runId_eq _ hrun (hrid.trans hid.symm)
  exact ⟨key, hlast, hkey.symm.trans hrunkey⟩

theorem Traced.append_of_accepted {calls : List ScanCall} (h : Traced calls) {last : ScanCall}
    (haccepted : last.Accepted) : Traced (calls ++ [last]) := by
  have hafter : persistAll RunStore.empty (calls ++ [last]) =
      last.commit (persistAll RunStore.empty calls) := persistAll_append _ _ _
  constructor
  · intro r a ha
    rw [hafter]
    rcases (wrote_append_iff ..).mp ha with hold | ⟨heq, _, hid⟩
    · obtain ⟨run, hrun, hrid, hkey⟩ := h.run_of r a hold
      obtain ⟨run', hrun', hrid', hkey'⟩ := last.exists_run_commit _ hrun
      exact ⟨run', hrun', hrid'.trans hrid, hkey'.trans hkey⟩
    · rw [← hid, heq]
      obtain ⟨run, hrun, hrid, hkey, _⟩ := last.exists_own_run _ haccepted
      exact ⟨run, hrun, hrid, hkey⟩
  · intro run hrun
    rw [hafter] at hrun
    by_cases hown : run.id = last.runId (persistAll RunStore.empty calls)
    · rcases last.own_run_cases (persistAll RunStore.empty calls) haccepted with
        ⟨found, hfound, _, hid, _, _, hmem⟩ | ⟨hid, hmem⟩
      · obtain ⟨a, ha, hstrategy⟩ := h.writer found hfound
        rw [ModelRuns.eq_of_id_eq _ hrun hmem (hown.trans hid.symm)]
        exact ⟨a, (wrote_append_iff ..).mpr (Or.inl ha), hstrategy⟩
      · rw [ModelRuns.eq_of_id_eq _ hrun hmem (hown.trans hid)]
        exact ⟨last, (wrote_append_iff ..).mpr (Or.inr ⟨rfl, haccepted, hid⟩), rfl, rfl⟩
    · obtain ⟨a, ha, hstrategy⟩ := h.writer run ((last.mem_runs_commit_of_ne _ hown).mp hrun)
      exact ⟨a, (wrote_append_iff ..).mpr (Or.inl ha), hstrategy⟩
  · intro r a b ha hb hkey
    rcases (wrote_append_iff ..).mp ha with hold | ⟨heq, _, hid⟩
    · rcases (wrote_append_iff ..).mp hb with hold' | ⟨_, _, hid'⟩
      · exact h.anonymous r a b hold hold' hkey
      · obtain ⟨key, _, hakey⟩ := h.key_of_runId_eq hold hid'
        exact absurd (hakey.symm.trans hkey) (Option.some_ne_none key)
    · rcases (wrote_append_iff ..).mp hb with hold' | ⟨heq', _, _⟩
      · obtain ⟨key, hlast, _⟩ := h.key_of_runId_eq hold' hid
        exact absurd (hlast.symm.trans (heq ▸ hkey)) (Option.some_ne_none key)
      · exact heq.trans heq'.symm

theorem Traced.append_of_not_accepted {calls : List ScanCall} (h : Traced calls)
    {last : ScanCall} (haccepted : ¬ last.Accepted) : Traced (calls ++ [last]) := by
  have hafter : persistAll RunStore.empty (calls ++ [last]) = persistAll RunStore.empty calls :=
    (persistAll_append _ _ _).trans (last.commit_of_not_accepted _ haccepted)
  have hwrote : ∀ r a, Wrote (calls ++ [last]) r a ↔ Wrote calls r a := by
    intro r a
    rw [wrote_append_iff]
    exact or_iff_left fun hlast => haccepted hlast.2.1
  constructor
  · intro r a ha
    rw [hafter]
    exact h.run_of r a ((hwrote r a).mp ha)
  · intro run hrun
    rw [hafter] at hrun
    obtain ⟨a, ha, hstrategy⟩ := h.writer run hrun
    exact ⟨a, (hwrote _ _).mpr ha, hstrategy⟩
  · intro r a b ha hb
    exact h.anonymous r a b ((hwrote r a).mp ha) ((hwrote r b).mp hb)

theorem traced (calls : List ScanCall) : Traced calls := by
  induction calls using List.reverseRecOn with
  | nil => exact traced_nil
  | append_singleton calls last ih =>
    by_cases haccepted : last.Accepted
    · exact ih.append_of_accepted haccepted
    · exact ih.append_of_not_accepted haccepted

/-! ## When versions are kept apart -/

/-- Accepted calls that share a run share a key, or are one call. -/
theorem Traced.eq_or_key {calls : List ScanCall} (h : Traced calls) {r : Nat} {a b : ScanCall}
    (ha : Wrote calls r a) (hb : Wrote calls r b) :
    a = b ∨ ∃ key, a.idempotencyKey = some key ∧ b.idempotencyKey = some key := by
  cases hkey : a.idempotencyKey with
  | none => exact Or.inl (h.anonymous r a b ha hb hkey)
  | some key =>
    obtain ⟨run, hrun, hid, hrunkey⟩ := h.run_of r a ha
    obtain ⟨run', hrun', hid', hrunkey'⟩ := h.run_of r b hb
    have hsame := ModelRuns.eq_of_id_eq _ hrun hrun' (hid.trans hid'.symm)
    rw [← hsame] at hrunkey'
    exact Or.inr ⟨key, rfl, hrunkey'.symm.trans (hrunkey.trans hkey)⟩

/-- Calls under one key share the run. -/
theorem Traced.run_eq_of_key {calls : List ScanCall} (h : Traced calls) {r s : Nat}
    {a b : ScanCall} (ha : Wrote calls r a) (hb : Wrote calls s b) {key : String}
    (hakey : a.idempotencyKey = some key) (hbkey : b.idempotencyKey = some key) : r = s := by
  obtain ⟨run, hrun, hid, hrunkey⟩ := h.run_of r a ha
  obtain ⟨run', hrun', hid', hrunkey'⟩ := h.run_of s b hb
  have hsame := ModelRuns.eq_of_key_eq _ hrun hrun' (hrunkey.trans hakey) (hrunkey'.trans hbkey)
  rw [← hid, ← hid', hsame]

theorem OneVersionPerKey.version_eq {calls : List ScanCall} (h : OneVersionPerKey calls) {r : Nat}
    {a b : ScanCall} (ha : Wrote calls r a) (hb : Wrote calls r b) : a.version = b.version := by
  rcases (traced calls).eq_or_key ha hb with heq | ⟨key, hakey, hbkey⟩
  · rw [heq]
  · exact h a ha.mem.1 ha.mem.2 b hb.mem.1 hb.mem.2 key hakey hbkey

theorem OneVersionPerKey.segregated {calls : List ScanCall} (h : OneVersionPerKey calls) :
    Segregated calls := by
  -- The run of another version's call is not the last call's own.
  have hother : ∀ earlier b, calls = earlier ++ [b] → ∀ r a, Wrote earlier r a →
      a.version ≠ b.version → b.Accepted → r ≠ b.runId (persistAll RunStore.empty earlier) := by
    intro earlier b heq r a ha hversion haccepted hid
    subst heq
    have ha' := (wrote_append_iff earlier b r a).mpr (Or.inl ha)
    have hb' := (wrote_append_iff earlier b r b).mpr (Or.inr ⟨rfl, haccepted, hid.symm⟩)
    exact hversion (h.version_eq ha' hb')
  constructor
  · intro r a ha s b hb hversion hrs
    subst hrs
    exact hversion (h.version_eq ha hb)
  · intro r a ha
    obtain ⟨run, hrun, hid, _⟩ := (traced calls).run_of r a ha
    obtain ⟨b, hb, hstrategy, hstrategyVersion⟩ := (traced calls).writer run hrun
    have hversion := h.version_eq ha (hid ▸ hb)
    rw [ScanCall.version, ScanCall.version, Prod.mk.injEq] at hversion
    refine ⟨run, hrun, hid, ?_, ?_⟩
    · rw [hstrategy, hversion.1]
    · rw [hstrategyVersion, hversion.2]
  · intro earlier b heq r a ha hversion signal hsignal
    rw [heq, persistAll_append]
    by_cases haccepted : b.Accepted
    · have hne := hother earlier b heq r a ha hversion haccepted
      exact b.mem_signals_commit_of_ne _ (hsignal.trans_ne hne)
    · rw [b.commit_of_not_accepted _ haccepted]
  · intro earlier b heq r a ha hversion run hrun
    rw [heq, persistAll_append]
    by_cases haccepted : b.Accepted
    · have hne := hother earlier b heq r a ha hversion haccepted
      exact b.mem_runs_commit_of_ne _ (hrun.trans_ne hne)
    · rw [b.commit_of_not_accepted _ haccepted]

/-- In every state of the run the versions are kept apart, exactly when no key
is used with two versions. -/
theorem segregated_iff (calls : List ScanCall) :
    (∀ earlier, earlier <+: calls → Segregated earlier) ↔ OneVersionPerKey calls := by
  constructor
  · intro h a ha haccepted b hb hbaccepted key hakey hbkey
    by_contra hversion
    obtain ⟨r, hr⟩ := exists_wrote ha haccepted
    obtain ⟨s, hs⟩ := exists_wrote hb hbaccepted
    have hrs := (traced calls).run_eq_of_key hr hs hakey hbkey
    exact (h calls (List.prefix_refl calls)).runs_differ r a hr s b hs hversion hrs
  · intro h earlier hinitial
    have hearlier : OneVersionPerKey earlier := fun a ha haccepted b hb =>
      h a (hinitial.subset ha) haccepted b (hinitial.subset hb)
    exact hearlier.segregated

/-- One qualified candidate of the day's job, under a strategy version. -/
def dailyScan (strategyVersion : String) : ScanCall :=
  { candidates :=
      [{ instrumentId := 1, symbol := "005930", exchange := "KRX", asOf := 5, dataSource := "krx"
         universeResults := [], eventDetections := [], strategyResult := none, qualified := true
         generatedAt := 5 }]
    modelName := "scanner"
    strategyId := "momentum"
    strategyVersion
    asOf := 5
    idempotencyKey := some "daily"
    now := 6 }

/-- The second version's results are written over the first one's. -/
theorem dailyScan_shares_run :
    ¬ ∀ earlier, earlier <+: [dailyScan "1.0", dailyScan "2.0"] → Segregated earlier := by
  intro h
  have hfirst : Wrote [dailyScan "1.0", dailyScan "2.0"] 1 (dailyScan "1.0") :=
    ⟨[], [dailyScan "2.0"], rfl, by decide, rfl⟩
  have hsecond : Wrote [dailyScan "1.0", dailyScan "2.0"] 1 (dailyScan "2.0") :=
    ⟨[dailyScan "1.0"], [], rfl, by decide, by decide⟩
  exact (h _ (List.prefix_refl _)).runs_differ 1 _ hfirst 1 _ hsecond (by decide) rfl

end Scanners
end QuantPlatform
