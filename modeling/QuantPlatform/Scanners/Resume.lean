import QuantPlatform.Scanners.Persistence

namespace QuantPlatform
namespace Scanners

open Db Relational

def runSignals (store : RunStore) (runId : Nat) : List SignalRow :=
  store.signals.rows.filter fun s => s.modelRunId = runId

theorem mem_runSignals_iff {store : RunStore} {runId : Nat} {s : SignalRow} :
    s ∈ runSignals store runId ↔ s ∈ store.signals.rows ∧ s.modelRunId = runId := by
  rw [runSignals, List.mem_filter, decide_eq_true_eq]

/-- What a signal says of an instrument. -/
structure SignalContent where
  instrumentId : Nat
  eventTime : Instant
  signalValue : Option Decimal
  signalLabel : Option String
  payload : Option PyValue

def signalContent (s : SignalRow) : SignalContent :=
  { instrumentId := s.instrumentId, eventTime := s.eventTime, signalValue := s.signalValue
    signalLabel := s.signalLabel, payload := s.payload }

def isQualified (s : SignalRow) : Bool := decide (s.signalLabel = some "qualified")

/-- What the call's signal for a candidate is to say. -/
def ScanCall.content (call : ScanCall) (candidate : Candidate) : SignalContent :=
  { instrumentId := candidate.instrumentId
    eventTime := call.asOf
    signalValue := some (Decimal.ofInt (if candidate.qualified then 1 else 0))
    signalLabel := some (if candidate.qualified then "qualified" else "not_qualified")
    payload := some (candidatePayload candidate) }

/-- The signals of the key's run are one for each candidate of the call, and its
metrics count them and the qualified ones among them. -/
def ConsistentWith (store : RunStore) (key : String) (call : ScanCall) : Prop :=
  ∃ run, store.runs.findByKey key = some run ∧
    ((runSignals store run.id).map signalContent).Perm (call.candidates.map call.content) ∧
    run.metrics = some (scanMetrics (runSignals store run.id).length
      ((runSignals store run.id).countP isQualified))

def signalPair (s : SignalRow) : Nat × Instant := (s.instrumentId, s.eventTime)

def ScanCall.pairs (call : ScanCall) : List (Nat × Instant) :=
  call.candidates.map fun candidate => (candidate.instrumentId, call.asOf)

theorem naturalKey_eq_iff {s t : SignalRow} :
    s.naturalKey = t.naturalKey ↔ s.modelRunId = t.modelRunId ∧ signalPair s = signalPair t := by
  simp only [SignalRow.naturalKey, signalPair, SignalKey.mk.injEq, Prod.mk.injEq]

/-- Within a run the pair determines the signal. -/
theorem nodup_signalPairs (store : RunStore) (runId : Nat) :
    ((runSignals store runId).map signalPair).Nodup := by
  have hunique : (store.signals.rows.map SignalRow.naturalKey).Nodup := store.signals.unique
  have hkeys : ((runSignals store runId).map SignalRow.naturalKey).Nodup :=
    hunique.sublist (List.filter_sublist.map SignalRow.naturalKey)
  rw [List.nodup_map_iff_inj_on (List.Nodup.of_map _ hkeys)]
  intro s hs t ht hpair
  have hrun := (mem_runSignals_iff.mp hs).2.trans (mem_runSignals_iff.mp ht).2.symm
  exact List.inj_on_of_nodup_map hkeys hs ht (naturalKey_eq_iff.mpr ⟨hrun, hpair⟩)

namespace ScanCall

variable (call : ScanCall) (store : RunStore)

theorem pairs_eq_map_content :
    call.pairs = (call.candidates.map call.content).map fun c => (c.instrumentId, c.eventTime) := by
  rw [List.map_map]
  rfl

/-- Writing a signal leaves its content under its key, whatever was there. -/
theorem signalContent_stored (candidate : Candidate) (runId : Nat) :
    signalContent (Table.stored updateSignal
      (store.signals.find (call.signalRow runId candidate).naturalKey)
      (call.signalRow runId candidate)) = call.content candidate := by
  cases hfind : store.signals.find (call.signalRow runId candidate).naturalKey with
  | none => rfl
  | some old =>
    obtain ⟨_, hpair⟩ := naturalKey_eq_iff.mp (Table.key_of_find hfind)
    rw [signalPair, signalPair, Prod.mk.injEq] at hpair
    show SignalContent.mk old.instrumentId old.eventTime _ _ _ = _
    rw [hpair.1, hpair.2]
    rfl

/-- A run's signals after the call: one written for each candidate, and those
before it that the call has no candidate for. -/
theorem mem_runSignals_commit_iff (haccepted : call.Accepted) {s : SignalRow} :
    s ∈ runSignals (call.commit store) (call.runId store) ↔
      (∃ candidate ∈ call.candidates,
        s = Table.stored updateSignal
          (store.signals.find (call.signalRow (call.runId store) candidate).naturalKey)
          (call.signalRow (call.runId store) candidate)) ∨
        (s ∈ runSignals store (call.runId store) ∧ signalPair s ∉ call.pairs) := by
  have hnodup := (call.nodup_signalRows_iff (call.runId store)).mpr haccepted
  rw [mem_runSignals_iff, (call.commit_of_accepted store haccepted).2,
    Table.mem_insertAll_iff _ hnodup, mem_runSignals_iff]
  have hkey : ∀ t : SignalRow, t.modelRunId = call.runId store →
      (t.naturalKey ∈ (call.signalRows (call.runId store)).map SignalRow.naturalKey ↔
        signalPair t ∈ call.pairs) := by
    intro t ht
    rw [signalRows, List.map_map, pairs, List.mem_map, List.mem_map]
    constructor
    · intro h
      obtain ⟨candidate, hmem, heq⟩ := h
      exact ⟨candidate, hmem, (naturalKey_eq_iff.mp heq).2⟩
    · intro h
      obtain ⟨candidate, hmem, heq⟩ := h
      exact ⟨candidate, hmem, naturalKey_eq_iff.mpr ⟨ht.symm, heq⟩⟩
  constructor
  · intro h
    obtain ⟨hwritten | ⟨hold, hnot⟩, hrun⟩ := h
    · obtain ⟨new, hnew, heq⟩ := hwritten
      obtain ⟨candidate, hmem, hcandidate⟩ := List.mem_map.mp hnew
      exact Or.inl ⟨candidate, hmem, by rw [heq, ← hcandidate]⟩
    · exact Or.inr ⟨⟨hold, hrun⟩, fun hpair => hnot ((hkey s hrun).mpr hpair)⟩
  · intro h
    rcases h with ⟨candidate, hmem, heq⟩ | ⟨⟨hold, hrun⟩, hnot⟩
    · refine ⟨Or.inl ⟨_, List.mem_map_of_mem hmem, heq⟩, ?_⟩
      have hstored := Table.key_stored updateSignal (t := store.signals)
        (call.signalRow (call.runId store) candidate)
      rw [← heq] at hstored
      exact (naturalKey_eq_iff.mp hstored).1
    · exact ⟨Or.inr ⟨hold, fun hk => hnot ((hkey s hrun).mp hk)⟩, hrun⟩

/-- The pairs of a run after the call are those before it and those of the call. -/
theorem mem_pairs_commit_iff (haccepted : call.Accepted) (p : Nat × Instant) :
    p ∈ (runSignals (call.commit store) (call.runId store)).map signalPair ↔
      p ∈ (runSignals store (call.runId store)).map signalPair ∨ p ∈ call.pairs := by
  have hpair : ∀ candidate, signalPair (Table.stored updateSignal
      (store.signals.find (call.signalRow (call.runId store) candidate).naturalKey)
      (call.signalRow (call.runId store) candidate)) = (candidate.instrumentId, call.asOf) := by
    intro candidate
    have hcontent := call.signalContent_stored store candidate (call.runId store)
    exact congrArg (fun c : SignalContent => (c.instrumentId, c.eventTime)) hcontent
  simp only [List.mem_map, call.mem_runSignals_commit_iff store haccepted]
  constructor
  · intro h
    obtain ⟨s, ⟨candidate, hmem, heq⟩ | ⟨hold, _⟩, hp⟩ := h
    · rw [heq, hpair] at hp
      exact Or.inr (List.mem_map.mpr ⟨candidate, hmem, hp⟩)
    · exact Or.inl ⟨s, hold, hp⟩
  · intro h
    by_cases hcall : p ∈ call.pairs
    · obtain ⟨candidate, hmem, hp⟩ := List.mem_map.mp hcall
      exact ⟨_, Or.inl ⟨candidate, hmem, rfl⟩, (hpair candidate).trans hp⟩
    · obtain ⟨s, hs, hp⟩ := h.resolve_right hcall
      exact ⟨s, Or.inr ⟨hs, hp ▸ hcall⟩, hp⟩

/-- Signals that say what the candidates say are qualified as often. -/
theorem countP_qualified_eq {signals : List SignalRow}
    (h : (signals.map signalContent).Perm (call.candidates.map call.content)) :
    signals.countP isQualified = call.candidates.countP Candidate.qualified := by
  have hcontent : ∀ c : SignalContent → Bool, (signals.map signalContent).countP c =
      (call.candidates.map call.content).countP c := fun c => h.countP_eq c
  have hlabel := hcontent fun c => decide (c.signalLabel = some "qualified")
  rw [List.countP_map, List.countP_map] at hlabel
  refine hlabel.trans (List.countP_congr fun candidate _ => ?_)
  show decide ((call.content candidate).signalLabel = some "qualified") = true ↔ _
  show decide (some (if candidate.qualified then "qualified" else "not_qualified") =
    some "qualified") = true ↔ _
  cases candidate.qualified <;> decide

theorem findByKey_commit {key : String} (hkey : call.idempotencyKey = some key)
    (haccepted : call.Accepted) :
    ∃ run, (call.commit store).runs.findByKey key = some run ∧ run.id = call.runId store ∧
      run.metrics = some call.metrics := by
  obtain ⟨run, hrun, hid, hrunkey, hmetrics⟩ := call.exists_own_run store haccepted
  exact ⟨run, ModelRuns.findByKey_of_mem _ hrun (hrunkey.trans hkey), hid, hmetrics⟩

/-- In a consistent run the pairs are those of the call, so the call has one
candidate for an instrument. -/
theorem accepted_of_perm {runId : Nat}
    (h : ((runSignals store runId).map signalContent).Perm (call.candidates.map call.content)) :
    ((runSignals store runId).map signalPair).Perm call.pairs ∧ call.Accepted := by
  have hpairs : ((runSignals store runId).map signalPair).Perm call.pairs := by
    have hmap := h.map fun c => (c.instrumentId, c.eventTime)
    rw [List.map_map, ← call.pairs_eq_map_content] at hmap
    exact hmap
  have hnodup := hpairs.nodup_iff.mp (nodup_signalPairs store runId)
  have hmap : call.pairs =
      (call.candidates.map Candidate.instrumentId).map fun i => (i, call.asOf) := by
    rw [List.map_map]
    rfl
  rw [hmap] at hnodup
  exact ⟨hpairs, List.Nodup.of_map _ hnodup⟩

/-- When the call writes over every signal the run had, the run says what the
candidates say. -/
theorem perm_of_covered (haccepted : call.Accepted)
    (hcovered : (runSignals store (call.runId store)).map signalPair ⊆ call.pairs) :
    ((runSignals (call.commit store) (call.runId store)).map signalContent).Perm
      (call.candidates.map call.content) := by
  have hrows : ∀ s, s ∈ runSignals (call.commit store) (call.runId store) ↔
      ∃ candidate ∈ call.candidates, s = Table.stored updateSignal
        (store.signals.find (call.signalRow (call.runId store) candidate).naturalKey)
        (call.signalRow (call.runId store) candidate) := by
    intro s
    rw [call.mem_runSignals_commit_iff store haccepted]
    exact or_iff_left fun hleft => hleft.2 (hcovered (List.mem_map_of_mem hleft.1))
  have hsignals :
      ((runSignals (call.commit store) (call.runId store)).map signalContent).Nodup := by
    refine List.Nodup.of_map (fun c => (c.instrumentId, c.eventTime)) ?_
    rw [List.map_map]
    exact nodup_signalPairs _ _
  have hcandidates : (call.candidates.map call.content).Nodup := by
    refine List.Nodup.of_map SignalContent.instrumentId ?_
    rw [List.map_map]
    exact haccepted
  rw [List.perm_ext_iff_of_nodup hsignals hcandidates]
  intro c
  rw [List.mem_map, List.mem_map]
  constructor
  · intro hc
    obtain ⟨s, hs, heq⟩ := hc
    obtain ⟨candidate, hmem, hstored⟩ := (hrows s).mp hs
    rw [hstored, call.signalContent_stored] at heq
    exact ⟨candidate, hmem, heq⟩
  · intro hc
    obtain ⟨candidate, hmem, heq⟩ := hc
    refine ⟨_, (hrows _).mpr ⟨candidate, hmem, rfl⟩, ?_⟩
    rw [call.signalContent_stored, heq]

/-- An attempt leaves its run consistent exactly when every signal the run had
is written over. -/
theorem consistentWith_commit_iff {key : String} (hkey : call.idempotencyKey = some key) :
    ConsistentWith (call.commit store) key call ↔
      call.Accepted ∧ (runSignals store (call.runId store)).map signalPair ⊆ call.pairs := by
  constructor
  · intro h
    obtain ⟨run, hfind, hperm, _⟩ := h
    obtain ⟨hpairs, haccepted⟩ := call.accepted_of_perm (call.commit store) hperm
    obtain ⟨own, hown, hid, _⟩ := call.findByKey_commit store hkey haccepted
    rw [hfind, Option.some.injEq] at hown
    rw [hown, hid] at hpairs
    refine ⟨haccepted, fun p hp => hpairs.subset ?_⟩
    exact (call.mem_pairs_commit_iff store haccepted p).mpr (Or.inl hp)
  · intro h
    obtain ⟨haccepted, hcovered⟩ := h
    obtain ⟨run, hfind, hid, hmetrics⟩ := call.findByKey_commit store hkey haccepted
    have hperm := call.perm_of_covered store haccepted hcovered
    rw [← hid] at hperm
    refine ⟨run, hfind, hperm, ?_⟩
    have hlength := hperm.length_eq
    rw [List.length_map, List.length_map] at hlength
    rw [hmetrics, metrics, hlength, call.countP_qualified_eq hperm]

end ScanCall

/-! ## Attempts under one key -/

/-- The run an attempt under the key starts from. -/
def startId (store : RunStore) (key : String) : Nat :=
  match store.runs.findByKey key with
  | some run => run.id
  | none => store.runs.nextId

theorem ScanCall.runId_eq_startId (call : ScanCall) (store : RunStore) {key : String}
    (hkey : call.idempotencyKey = some key) : call.runId store = startId store key := by
  unfold startId
  rcases store.runs.startRun_cases call.runValues with
    ⟨existing, key', hkey', hfind, heq⟩ | ⟨hnone, started, heq, _, _⟩
  · have hsame : key' = key := Option.some.inj (hkey'.symm.trans hkey)
    rw [← hsame, hfind]
    exact congrArg (fun s => s.2.1) heq
  · rw [hnone key hkey]
    exact congrArg (fun s => s.2.1) heq

/-- After any number of attempts the run has signals for the pairs of those that
were accepted. -/
theorem mem_pairs_persistAll_iff {store : RunStore} {key : String}
    (hfresh : store.runs.findByKey key = none) {calls : List ScanCall}
    (hkey : ∀ call ∈ calls, call.idempotencyKey = some key) (p : Nat × Instant) :
    p ∈ (runSignals (persistAll store calls) (startId (persistAll store calls) key)).map
        signalPair ↔
      ∃ call ∈ calls, call.Accepted ∧ p ∈ call.pairs := by
  induction calls using List.reverseRecOn with
  | nil =>
    have hnone : runSignals store (startId store key) = [] := by
      rw [List.eq_nil_iff_forall_not_mem]
      intro s hs
      obtain ⟨hmem, hid⟩ := mem_runSignals_iff.mp hs
      obtain ⟨run, hrun, hrid⟩ := store.modelRunId_mem s hmem
      have hnext : startId store key = store.runs.nextId := by rw [startId, hfresh]
      exact absurd (hrid.trans (hid.trans hnext)) (Nat.ne_of_lt (store.runs.id_lt run hrun))
    show p ∈ (runSignals store (startId store key)).map signalPair ↔ _
    rw [hnone]
    simp
  | append_singleton calls last ih =>
    have hrest := ih fun call hcall => hkey call (List.mem_append_left _ hcall)
    have hlast := hkey last (List.mem_append_right _ (List.mem_singleton_self _))
    have hstart := last.runId_eq_startId (persistAll store calls) hlast
    rw [persistAll_append]
    simp only [List.mem_append, List.mem_singleton, or_and_right, exists_or, exists_eq_left]
    rw [← hrest, ← hstart]
    by_cases haccepted : last.Accepted
    · obtain ⟨run, hfind, hid, _⟩ := last.findByKey_commit (persistAll store calls) hlast haccepted
      have hsame : startId (last.commit (persistAll store calls)) key =
          last.runId (persistAll store calls) := by
        rw [startId, hfind]
        exact hid
      rw [hsame, last.mem_pairs_commit_iff _ haccepted]
      simp only [haccepted, true_and]
    · rw [last.commit_of_not_accepted _ haccepted, ← hstart]
      simp only [haccepted, false_and, or_false]

theorem forall_prefix_concat_iff {α : Type} (p : List α → α → Prop) (xs : List α) (last : α) :
    (∀ earlier x, earlier ++ [x] <+: xs ++ [last] → p earlier x) ↔
      (∀ earlier x, earlier ++ [x] <+: xs → p earlier x) ∧ p xs last := by
  constructor
  · intro h
    exact ⟨fun earlier x hinitial => h earlier x (hinitial.trans (List.prefix_append _ _)),
      h xs last (List.prefix_refl _)⟩
  · intro h earlier x hinitial
    rcases List.prefix_concat_iff.mp hinitial with heq | hinitial
    · obtain ⟨hxs, hlast⟩ := List.append_inj' heq rfl
      rw [List.cons.injEq] at hlast
      rw [hxs, hlast.1]
      exact h.2
    · exact h.1 earlier x hinitial

/-- After every attempt the run is consistent, exactly when every attempt has
one candidate for an instrument and covers the pairs of those before it. -/
theorem consistent_iff {store : RunStore} {key : String}
    (hfresh : store.runs.findByKey key = none) {calls : List ScanCall}
    (hkey : ∀ call ∈ calls, call.idempotencyKey = some key) :
    (∀ earlier call, earlier ++ [call] <+: calls →
        ConsistentWith (persistAll store (earlier ++ [call])) key call) ↔
      (∀ call ∈ calls, call.Accepted) ∧
        calls.Pairwise fun previous call => previous.pairs ⊆ call.pairs := by
  induction calls using List.reverseRecOn with
  | nil =>
    refine iff_of_true (fun earlier call hinitial => ?_) ⟨by simp, List.Pairwise.nil⟩
    exact absurd (List.prefix_nil.mp hinitial) (by simp)
  | append_singleton calls last ih =>
    have hearlier : ∀ call ∈ calls, call.idempotencyKey = some key := fun call hcall =>
      hkey call (List.mem_append_left _ hcall)
    have hlast := hkey last (List.mem_append_right _ (List.mem_singleton_self _))
    rw [forall_prefix_concat_iff, ih hearlier, persistAll_append,
      last.consistentWith_commit_iff _ hlast, last.runId_eq_startId _ hlast,
      List.forall_mem_append, List.forall_mem_singleton, List.pairwise_append]
    -- What the last attempt finds is what the accepted ones before it left.
    have hfound : (∀ call ∈ calls, call.Accepted) →
        ((runSignals (persistAll store calls) (startId (persistAll store calls) key)).map
            signalPair ⊆ last.pairs ↔ ∀ previous ∈ calls, previous.pairs ⊆ last.pairs) := by
      intro haccepted
      constructor
      · intro h previous hprevious p hp
        exact h ((mem_pairs_persistAll_iff hfresh hearlier p).mpr
          ⟨previous, hprevious, haccepted previous hprevious, hp⟩)
      · intro h p hp
        obtain ⟨previous, hprevious, _, hmem⟩ :=
          (mem_pairs_persistAll_iff hfresh hearlier p).mp hp
        exact h previous hprevious hmem
    simp only [List.mem_singleton, forall_eq, List.pairwise_singleton, true_and]
    constructor
    · intro h
      exact ⟨⟨h.1.1, h.2.1⟩, h.1.2, (hfound h.1.1).mp h.2.2⟩
    · intro h
      exact ⟨⟨h.1.1, h.2.1⟩, h.1.2, (hfound h.1.1).mpr h.2.2⟩

/-- An attempt of the day's job that has a qualified candidate for each
instrument. -/
def attempt (instrumentIds : List Nat) : ScanCall :=
  { candidates := instrumentIds.map fun instrumentId =>
      { instrumentId, symbol := "005930", exchange := "KRX", asOf := 5, dataSource := "krx"
        universeResults := [], eventDetections := [], strategyResult := none, qualified := true
        generatedAt := 5 }
    modelName := "scanner"
    strategyId := "momentum"
    strategyVersion := "1.0"
    asOf := 5
    idempotencyKey := some "daily"
    now := 6 }

/-- An attempt that finds more is consistent. -/
theorem attempt_extended_consistent :
    ConsistentWith (persistAll RunStore.empty [attempt [1], attempt [1, 2]]) "daily"
      (attempt [1, 2]) :=
  (consistent_iff rfl (by decide)).mpr (by decide) [attempt [1]] (attempt [1, 2])
    (List.prefix_refl _)

/-- An attempt that finds less leaves a signal of the one before it. -/
theorem attempt_shrunk_inconsistent :
    ¬ ∀ earlier call, earlier ++ [call] <+: [attempt [1, 2], attempt [1]] →
      ConsistentWith (persistAll RunStore.empty (earlier ++ [call])) "daily" call := by
  intro h
  obtain ⟨run, hfind, hperm, _⟩ := h [attempt [1, 2]] (attempt [1]) (List.prefix_refl _)
  have hid : ((persistAll RunStore.empty [attempt [1, 2], attempt [1]]).runs.findByKey
      "daily").map ModelRunRow.id = some 1 := by decide
  rw [show [attempt [1, 2], attempt [1]] = [attempt [1, 2]] ++ [attempt [1]] from rfl, hfind] at hid
  rw [Option.some.inj hid] at hperm
  exact absurd hperm.length_eq (by decide)

end Scanners
end QuantPlatform
