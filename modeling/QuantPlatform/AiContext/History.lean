import QuantPlatform.AiContext.Persistence

namespace QuantPlatform
namespace AiContext

open Db Relational

structure PersistCall where
  results : List AIContextResult
  eventTime : Instant
  asOf : Instant

namespace PersistCall

/-- The rows the call submits. -/
def rows (call : PersistCall) : List AIContextAnnotationRow :=
  call.results.map (annotationRow call.eventTime call.asOf)

/-- The table once the call's transaction has ended: a call that raises is
rolled back. -/
def commit (annotations : Annotations) (call : PersistCall) : Annotations :=
  match persistAnnotations annotations call.results call.eventTime call.asOf with
  | .ok (written, _) => written
  | .error _ => annotations

/-- No result of the call is generated after the call's `as_of`. -/
def GeneratedInTime (call : PersistCall) : Prop :=
  ∀ result ∈ call.results, result.generatedAt ≤ call.asOf

/-- The call writes every result that was available before it as it is stored,
unless the call is refused. -/
def KeepsVisible (annotations : Annotations) (call : PersistCall) : Prop :=
  (call.rows.map AIContextAnnotationRow.naturalKey).Nodup →
    ∀ result ∈ call.results, ∀ row ∈ annotations.rows,
      row.naturalKey = (annotationRow call.eventTime call.asOf result).naturalKey →
      row.availableAt < call.asOf → toResult row = .ok result

theorem commit_of_nodup {call : PersistCall}
    (h : (call.rows.map AIContextAnnotationRow.naturalKey).Nodup) (annotations : Annotations) :
    call.commit annotations = annotations.insertAll updateOutcome call.rows := by
  have hok := (upsertEventRows_ok_iff updateOutcome annotations call.rows _).mpr ⟨h, rfl⟩
  have hrun : persistAnnotations annotations call.results call.eventTime call.asOf =
    .ok (annotations.insertAll updateOutcome call.rows, call.rows.length) := hok
  simp only [commit, hrun]

theorem commit_of_not_nodup {call : PersistCall}
    (h : ¬ (call.rows.map AIContextAnnotationRow.naturalKey).Nodup) (annotations : Annotations) :
    call.commit annotations = annotations := by
  unfold commit
  cases hrun : persistAnnotations annotations call.results call.eventTime call.asOf with
  | error e => rfl
  | ok written => exact absurd ((upsertEventRows_ok_iff ..).mp hrun).1 h

end PersistCall

def annotationsAfter (calls : List PersistCall) : Annotations :=
  calls.foldl (fun annotations call => call.commit annotations) Table.empty

theorem annotationsAfter_append (calls : List PersistCall) (call : PersistCall) :
    annotationsAfter (calls ++ [call]) = call.commit (annotationsAfter calls) :=
  List.foldl_concat _ _ _ _

/-! ## What one call does -/

/-- Every row is that of a result. -/
def WellFormed (annotations : Annotations) : Prop :=
  ∀ row ∈ annotations.rows, ∃ result,
    toResult row = .ok result ∧ row = annotationRow row.eventTime row.availableAt result

/-- A row after a call is new, with the call's `as_of`, or an old row under the
same key, with the `available_at` it had and perhaps another result. -/
theorem mem_commit_cases {annotations : Annotations} (hwf : WellFormed annotations)
    {call : PersistCall} {row : AIContextAnnotationRow}
    (h : row ∈ (call.commit annotations).rows) :
    (∃ result ∈ call.results, row = annotationRow call.eventTime call.asOf result) ∨
      ∃ old ∈ annotations.rows, old.naturalKey = row.naturalKey ∧
        (row = old ∨ ∃ result ∈ call.results,
          (call.rows.map AIContextAnnotationRow.naturalKey).Nodup ∧
          old.naturalKey = (annotationRow call.eventTime call.asOf result).naturalKey ∧
          row = annotationRow old.eventTime old.availableAt result) := by
  by_cases hnodup : (call.rows.map AIContextAnnotationRow.naturalKey).Nodup
  · rw [PersistCall.commit_of_nodup hnodup] at h
    rcases (Table.mem_insertAll_iff _ hnodup _ _).mp h with ⟨new, hnew, heq⟩ | ⟨hold, _⟩
    · obtain ⟨result, hresult, hrow⟩ := List.mem_map.mp hnew
      subst hrow
      cases hfind : annotations.find (annotationRow call.eventTime call.asOf result).naturalKey with
      | none =>
        rw [hfind] at heq
        exact Or.inl ⟨result, hresult, heq⟩
      | some old =>
        rw [hfind] at heq
        obtain ⟨hold, hkey⟩ := (Table.find_eq_some_iff ..).mp hfind
        obtain ⟨stored, _, hstored⟩ := hwf old hold
        have hset : row = annotationRow old.eventTime old.availableAt result := by
          rw [heq]
          show updateOutcome.set old _ = _
          rw [hstored] at hkey ⊢
          exact updateOutcome_annotationRow hkey
        refine Or.inr ⟨old, hold, ?_, Or.inr ⟨result, hresult, hnodup, hkey, hset⟩⟩
        rw [hset]
        exact hkey
    · exact Or.inr ⟨row, hold, rfl, Or.inl rfl⟩
  · rw [PersistCall.commit_of_not_nodup hnodup] at h
    exact Or.inr ⟨row, h, rfl, Or.inl rfl⟩

/-- A stored row for whose key the call has a result takes that result. -/
theorem mem_commit_of_mem_results {annotations : Annotations} (hwf : WellFormed annotations)
    {call : PersistCall} (hnodup : (call.rows.map AIContextAnnotationRow.naturalKey).Nodup)
    {old : AIContextAnnotationRow} (hold : old ∈ annotations.rows) {result : AIContextResult}
    (hresult : result ∈ call.results)
    (hkey : old.naturalKey = (annotationRow call.eventTime call.asOf result).naturalKey) :
    annotationRow old.eventTime old.availableAt result ∈ (call.commit annotations).rows := by
  rw [PersistCall.commit_of_nodup hnodup, Table.mem_insertAll_iff _ hnodup]
  refine Or.inl ⟨_, List.mem_map_of_mem hresult, ?_⟩
  rw [← hkey, (Table.mem_rows_iff annotations old).mp hold]
  show _ = updateOutcome.set old _
  obtain ⟨stored, _, hstored⟩ := hwf old hold
  rw [hstored] at hkey ⊢
  exact (updateOutcome_annotationRow hkey).symm

/-- An old row is still there, unless the call has another result for its key. -/
theorem exists_mem_commit {annotations : Annotations} (hwf : WellFormed annotations)
    (call : PersistCall) {old : AIContextAnnotationRow} (hold : old ∈ annotations.rows) :
    old ∈ (call.commit annotations).rows ∨
      ∃ result ∈ call.results, (call.rows.map AIContextAnnotationRow.naturalKey).Nodup ∧
        old.naturalKey = (annotationRow call.eventTime call.asOf result).naturalKey ∧
        annotationRow old.eventTime old.availableAt result ∈ (call.commit annotations).rows := by
  by_cases hnodup : (call.rows.map AIContextAnnotationRow.naturalKey).Nodup
  · by_cases hk : old.naturalKey ∈ call.rows.map AIContextAnnotationRow.naturalKey
    · obtain ⟨new, hnew, hkey⟩ := List.mem_map.mp hk
      obtain ⟨result, hresult, hrow⟩ := List.mem_map.mp hnew
      subst hrow
      exact Or.inr ⟨result, hresult, hnodup, hkey.symm,
        mem_commit_of_mem_results hwf hnodup hold hresult hkey.symm⟩
    · rw [PersistCall.commit_of_nodup hnodup, Table.mem_insertAll_iff _ hnodup]
      exact Or.inl (Or.inr ⟨hold, hk⟩)
  · rw [PersistCall.commit_of_not_nodup hnodup]
    exact Or.inl hold

theorem WellFormed.commit {annotations : Annotations} (h : WellFormed annotations)
    (call : PersistCall) : WellFormed (call.commit annotations) := by
  intro row hrow
  rcases mem_commit_cases h hrow with
    ⟨result, _, heq⟩ | ⟨old, hold, _, heq | ⟨result, _, _, _, heq⟩⟩
  · subst heq
    exact ⟨result, toResult_annotationRow .., rfl⟩
  · subst heq
    exact h row hold
  · subst heq
    exact ⟨result, toResult_annotationRow .., rfl⟩

theorem wellFormed_annotationsAfter (calls : List PersistCall) :
    WellFormed (annotationsAfter calls) := by
  induction calls using List.reverseRecOn with
  | nil =>
    intro row hrow
    cases hrow
  | append_singleton calls call ih =>
    rw [annotationsAfter_append]
    exact ih.commit call

/-- What a read may return, whatever the order of rows that tie. -/
def loadOutcomes (annotations : Annotations) (source externalId : String)
    (eventKind : EventKind) (asOf : Instant) (modelName : Option String) :
    Set (Except Exn (List AIContextResult)) :=
  {outcome | ∃ order,
    loadAnnotationsAsOf order annotations source externalId eventKind asOf modelName = outcome}

section Reads

variable {annotations : Annotations} {source externalId : String} {eventKind : EventKind}
  {asOf : Instant} {modelName : Option String}

theorem mem_of_load {order : AnnotationOrder} {results : List AIContextResult}
    (h : loadAnnotationsAsOf order annotations source externalId eventKind asOf modelName =
      .ok results) (result : AIContextResult) :
    result ∈ results ↔ ∃ row ∈ annotations.rows,
      annotationFilter source externalId (StrEnum.value eventKind) asOf modelName row = true ∧
        toResult row = .ok result := by
  have hmem := Raise.exists_mem_iff_of_mapM h fun r => r = result
  simp only [exists_eq_right] at hmem
  rw [hmem]
  simp only [getAnnotationsAsOf, order.mem_arrange_iff, List.mem_filter, and_assoc]

/-- A table of rows of results can be read. -/
theorem WellFormed.exists_load (hwf : WellFormed annotations) (order : AnnotationOrder)
    (source externalId : String) (eventKind : EventKind) (asOf : Instant)
    (modelName : Option String) :
    ∃ results, loadAnnotationsAsOf order annotations source externalId eventKind asOf modelName =
      .ok results := by
  apply Raise.exists_mapM_eq_ok
  intro row hrow
  have hmem := (List.mem_filter.mp ((order.mem_arrange_iff _ _).mp hrow)).1
  obtain ⟨result, hresult, _⟩ := hwf row hmem
  exact ⟨result, hresult⟩

/-- Tables with the same rows up to `as_of` may return the same. -/
theorem loadOutcomes_subset {annotations' : Annotations}
    (h : ∀ row : AIContextAnnotationRow, row.availableAt ≤ asOf →
      (row ∈ annotations.rows ↔ row ∈ annotations'.rows)) :
    loadOutcomes annotations source externalId eventKind asOf modelName ⊆
      loadOutcomes annotations' source externalId eventKind asOf modelName := by
  intro outcome houtcome
  obtain ⟨order, hload⟩ := houtcome
  let asked := annotationFilter source externalId (StrEnum.value eventKind) asOf modelName
  have hperm : (annotations.rows.filter asked).Perm (annotations'.rows.filter asked) := by
    rw [List.perm_ext_iff_of_nodup (annotations.rows_nodup.filter _)
      (annotations'.rows_nodup.filter _)]
    intro row
    rw [List.mem_filter, List.mem_filter, and_congr_left_iff]
    intro hrow
    exact h row (availableAt_le_of_annotationFilter hrow)
  obtain ⟨order', horder'⟩ :=
    order.exists_arrange_eq ((order.perm _).trans hperm) (order.sorted _)
  refine ⟨order', ?_⟩
  rw [← hload]
  unfold loadAnnotationsAsOf getAnnotationsAsOf
  rw [horder']

end Reads

/-! ## Point-in-time reads over a run -/

/-- No read shows a result generated after its `as_of`, and no later call changes
what a read before the call's `as_of` may return. -/
def PointInTime (calls : List PersistCall) : Prop :=
  ∀ n : Nat,
    (∀ (order : AnnotationOrder) (source externalId : String) (eventKind : EventKind)
        (asOf : Instant) (modelName : Option String) (results : List AIContextResult),
      loadAnnotationsAsOf order (annotationsAfter (calls.take n)) source externalId eventKind asOf
          modelName = .ok results →
        ∀ result ∈ results, result.generatedAt ≤ asOf) ∧
    (∀ call, calls[n]? = some call → ∀ asOf < call.asOf,
      ∀ (source externalId : String) (eventKind : EventKind) (modelName : Option String),
        loadOutcomes (annotationsAfter (calls.take (n + 1))) source externalId eventKind asOf
            modelName =
          loadOutcomes (annotationsAfter (calls.take n)) source externalId eventKind asOf
            modelName)

/-- A call that keeps what was visible leaves the rows from before it alone. -/
theorem mem_commit_iff_of_keepsVisible {annotations : Annotations}
    (hwf : WellFormed annotations) {call : PersistCall} (hkeeps : call.KeepsVisible annotations)
    {row : AIContextAnnotationRow} (hat : row.availableAt < call.asOf) :
    row ∈ (call.commit annotations).rows ↔ row ∈ annotations.rows := by
  have hrewritten : ∀ old ∈ annotations.rows, ∀ result ∈ call.results,
      (call.rows.map AIContextAnnotationRow.naturalKey).Nodup →
      old.naturalKey = (annotationRow call.eventTime call.asOf result).naturalKey →
      old.availableAt < call.asOf →
      annotationRow old.eventTime old.availableAt result = old := by
    intro old hold result hresult hnodup hkey hold_at
    obtain ⟨stored, hstored, hrow⟩ := hwf old hold
    have hsame := hkeeps hnodup result hresult old hold hkey hold_at
    rw [hstored] at hsame
    rw [← Except.ok.inj hsame]
    exact hrow.symm
  constructor
  · intro hrow
    rcases mem_commit_cases hwf hrow with ⟨result, _, heq⟩ | ⟨old, hold, _, heq | heq⟩
    · rw [heq] at hat
      exact absurd hat (lt_irrefl _)
    · exact heq ▸ hold
    · obtain ⟨result, hresult, hnodup, hkey, heq⟩ := heq
      have hold_at : old.availableAt < call.asOf := by
        rw [heq] at hat
        exact hat
      rw [heq, hrewritten old hold result hresult hnodup hkey hold_at]
      exact hold
  · intro hrow
    rcases exists_mem_commit hwf call hrow with hrow' | ⟨result, hresult, hnodup, hkey, hrow'⟩
    · exact hrow'
    · rw [hrewritten row hrow result hresult hnodup hkey hat] at hrow'
      exact hrow'

/-- One call keeps every row generated by the time it is available. -/
theorem generated_commit {annotations : Annotations} (hwf : WellFormed annotations)
    (h : ∀ row ∈ annotations.rows, row.ingestedAt ≤ row.availableAt) {call : PersistCall}
    (hgenerated : call.GeneratedInTime) (hkeeps : call.KeepsVisible annotations) :
    ∀ row ∈ (call.commit annotations).rows, row.ingestedAt ≤ row.availableAt := by
  intro row hrow
  by_cases hat : row.availableAt < call.asOf
  · exact h row ((mem_commit_iff_of_keepsVisible hwf hkeeps hat).mp hrow)
  · have hle := not_lt.mp hat
    rcases mem_commit_cases hwf hrow with ⟨result, hresult, heq⟩ | ⟨old, hold, _, heq | heq⟩
    · rw [heq]
      exact hgenerated result hresult
    · exact h row (heq ▸ hold)
    · obtain ⟨result, hresult, _, _, heq⟩ := heq
      have hgen := (hgenerated result hresult).trans hle
      rw [heq] at hgen ⊢
      exact hgen

/-- What a read before the call's `as_of` may return is changed by any rewritten
result that was available. -/
theorem keepsVisible_of_loadOutcomes_eq {annotations : Annotations}
    (hwf : WellFormed annotations) {call : PersistCall}
    (hsame : ∀ asOf < call.asOf,
      ∀ (source externalId : String) (eventKind : EventKind) (modelName : Option String),
        loadOutcomes (call.commit annotations) source externalId eventKind asOf modelName =
          loadOutcomes annotations source externalId eventKind asOf modelName) :
    call.KeepsVisible annotations := by
  intro hnodup result hresult row hrow hkey hat
  -- The read that asks for this annotation as of the row's `available_at`.
  obtain ⟨results, hresults⟩ := (hwf.commit call).exists_load (OrderBy.byColumn _) result.source
    result.externalId result.eventKind row.availableAt none
  have hshown : result ∈ results :=
    (mem_of_load hresults result).mpr ⟨annotationRow row.eventTime row.availableAt result,
      mem_commit_of_mem_results hwf hnodup hrow hresult hkey,
      by simp [annotationFilter, annotationRow], toResult_annotationRow ..⟩
  have hbefore := hsame row.availableAt hat result.source result.externalId result.eventKind none
  obtain ⟨order, horder⟩ :
      Except.ok results ∈ loadOutcomes annotations result.source result.externalId
        result.eventKind row.availableAt none := hbefore ▸ ⟨_, hresults⟩
  obtain ⟨row', hrow', _, hresult'⟩ := (mem_of_load horder result).mp hshown
  obtain ⟨stored, hstored, heq⟩ := hwf row' hrow'
  rw [Except.ok.inj (hstored.symm.trans hresult')] at heq
  have hkey' : row'.naturalKey = row.naturalKey := by
    rw [heq, hkey]
    rfl
  exact annotations.eq_of_key_eq hrow' hrow hkey' ▸ hresult'

theorem annotationsAfter_take_succ {calls : List PersistCall} {n : Nat} {call : PersistCall}
    (h : calls[n]? = some call) :
    annotationsAfter (calls.take (n + 1)) = call.commit (annotationsAfter (calls.take n)) := by
  rw [List.take_add_one, h]
  exact annotationsAfter_append _ _

theorem generated_annotationsAfter {calls : List PersistCall}
    (hgenerated : ∀ call ∈ calls, call.GeneratedInTime)
    (hkeeps : ∀ (n : Nat) (call : PersistCall), calls[n]? = some call →
      call.KeepsVisible (annotationsAfter (calls.take n))) (n : Nat) :
    ∀ row ∈ (annotationsAfter (calls.take n)).rows, row.ingestedAt ≤ row.availableAt := by
  induction n with
  | zero =>
    intro row hrow
    cases hrow
  | succ n ih =>
    cases h : calls[n]? with
    | none =>
      rw [List.take_add_one, h]
      simpa using ih
    | some call =>
      rw [annotationsAfter_take_succ h]
      exact generated_commit (wellFormed_annotationsAfter _) ih
        (hgenerated call (List.mem_of_getElem? h)) (hkeeps n call h)

/-- Reads of annotations are point-in-time safe over a run exactly when no call
rewrites, with another outcome or generation time, a result that was available
before the call. -/
theorem annotations_point_in_time_iff (calls : List PersistCall)
    (hgenerated : ∀ call ∈ calls, call.GeneratedInTime) :
    PointInTime calls ↔
      ∀ (n : Nat) (call : PersistCall), calls[n]? = some call →
        call.KeepsVisible (annotationsAfter (calls.take n)) := by
  constructor
  · intro h n call hcall
    apply keepsVisible_of_loadOutcomes_eq (wellFormed_annotationsAfter _)
    have hsame := (h n).2 call hcall
    rw [annotationsAfter_take_succ hcall] at hsame
    exact hsame
  · intro hkeeps n
    have hwf := wellFormed_annotationsAfter (calls.take n)
    refine ⟨?_, ?_⟩
    · intro order source externalId eventKind asOf modelName results hresults result hresult
      obtain ⟨row, hrow, hfilter, hrow'⟩ := (mem_of_load hresults result).mp hresult
      obtain ⟨stored, hstored, heq⟩ := hwf row hrow
      rw [Except.ok.inj (hstored.symm.trans hrow')] at heq
      have hgen := generated_annotationsAfter hgenerated hkeeps n row hrow
      have hingested : row.ingestedAt = result.generatedAt := by
        rw [heq]
        rfl
      exact hingested ▸ hgen.trans (availableAt_le_of_annotationFilter hfilter)
    · intro call hcall asOf hasOf source externalId eventKind modelName
      rw [annotationsAfter_take_succ hcall]
      have hrows : ∀ row : AIContextAnnotationRow, row.availableAt ≤ asOf →
          (row ∈ (call.commit (annotationsAfter (calls.take n))).rows ↔
            row ∈ (annotationsAfter (calls.take n)).rows) :=
        fun row hat => mem_commit_iff_of_keepsVisible hwf (hkeeps n call hcall)
          (lt_of_le_of_lt hat hasOf)
      exact Set.Subset.antisymm (loadOutcomes_subset hrows)
        (loadOutcomes_subset fun row hat => (hrows row hat).symm)

/-- An article's annotation by one model version, and the same version run again
with another outcome. -/
def extraction (generatedAt : Instant) (eventType : EventType) : AIContextResult :=
  { status := .ok, source := "wire", externalId := "n-1", eventKind := .news
    modelName := "extractor", modelVersion := "1", generatedAt, eventType }

def firstRun : PersistCall :=
  { results := [extraction 1 .earnings], eventTime := 0, asOf := 1 }

def rerun : PersistCall :=
  { results := [extraction 5 .guidance], eventTime := 0, asOf := 5 }

/-- The first annotation as it was, and one of another article. -/
def resubmission : PersistCall :=
  { results := [extraction 1 .earnings, { extraction 4 .guidance with externalId := "n-2" }]
    eventTime := 0, asOf := 5 }

theorem resubmission_point_in_time : PointInTime [firstRun, resubmission] := by
  refine (annotations_point_in_time_iff [firstRun, resubmission] ?_).mpr ?_
  · simp only [List.forall_mem_cons, PersistCall.GeneratedInTime]
    decide
  · intro n call hcall
    rcases n with _ | _ | n
    · intro _ _ _ row hrow
      exact absurd hrow List.not_mem_nil
    · cases hcall
      unfold PersistCall.KeepsVisible
      decide
    · cases hcall

/-- A reader at 1 is shown what was generated at 5. -/
theorem rerun_shown_early :
    ¬ ∀ calls : List PersistCall, (∀ call ∈ calls, call.GeneratedInTime) → PointInTime calls := by
  intro h
  have hgenerated : ∀ call ∈ [firstRun, rerun], call.GeneratedInTime := by
    simp only [List.forall_mem_cons, PersistCall.GeneratedInTime]
    decide
  have hread := (h [firstRun, rerun] hgenerated 2).1 (OrderBy.byColumn _) "wire" "n-1" .news 1
    none [extraction 5 .guidance] rfl
  exact absurd (hread _ List.mem_cons_self) (by decide)

end AiContext
end QuantPlatform
