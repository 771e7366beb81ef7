/-
A result persisted is loaded as it was.

What is stored of a result reads back as that result, also where a row was there before,
since every column the reader reads is rewritten.  A load raises when any row it selects
does not decode, so the result is among the loaded ones exactly when the other rows of
its item decode.  Rows that results left always do.
-/
import QuantPlatform.AiContext.Columns
import QuantPlatform.AiContext.History

namespace QuantPlatform
namespace AiContext

open QuantPlatform.Core Db Relational Validation

variable {floatRepr : ℚ → String}

/-- The confidences in a result. -/
def AIContextResult.confidences (result : AIContextResult) : List Confidence :=
  result.entities.map EntityLink.confidence ++
    [result.impactHorizon.oneDay.confidence, result.impactHorizon.fiveDay.confidence,
      result.impactHorizon.tenDay.confidence, result.impactHorizon.longTerm.confidence]

/-- `float(repr(x))` is `x`, for the confidences of the result. -/
def ReadsBack (floatRepr : ℚ → String) (result : AIContextResult) : Prop :=
  ∀ confidence ∈ result.confidences, ∀ value, confidence.value = .finite value →
    PyFloat.ofStr (floatRepr value) = some (.finite value)

/-- The text fits a column of a length. -/
def FitsVarchar (limit : Nat) (text : String) : Prop :=
  hasNul text = false ∧ text.length ≤ limit

/-- The columns take the result as it is. -/
structure FitsColumns (floatRepr : ℚ → String) (result : AIContextResult) : Prop where
  source : FitsVarchar 32 result.source
  externalId : FitsVarchar 128 result.externalId
  modelName : FitsVarchar 64 result.modelName
  modelVersion : FitsVarchar 64 result.modelVersion
  duplicateClusterId : ∀ text, result.duplicateClusterId = some text → FitsVarchar 128 text
  impactHorizon : jsonbAccepts (result.impactHorizon.modelDump floatRepr) = true
  entities : jsonbAccepts (dumpEntities floatRepr result.entities) = true
  summary : hasNul result.summary = false
  rationale : hasNul result.rationale = false
  parseError : ∀ text, result.parseError = some text → hasNul text = false

theorem isJson_dump (confidence : Confidence) : isJson (confidence.dump floatRepr) = true := by
  obtain ⟨value, _⟩ := confidence
  cases value <;> rfl

theorem isJson_modelDump_horizon (horizon : ImpactHorizon) :
    isJson (horizon.modelDump floatRepr) = true := by
  simp [ImpactHorizon.modelDump, HorizonAssessment.modelDump, isJson, isJsonEntries, isJson_dump]

theorem isJson_dumpEntities (entities : List EntityLink) :
    isJson (dumpEntities floatRepr entities) = true := by
  have htext := @isJson_dumpOptional String .str fun _ => rfl
  refine isJson_dumpList (fun link => ?_) entities
  simp [EntityLink.modelDump, isJson, isJsonEntries, isJson_dump, htext]

/-- A confidence that JSONB takes is a number, and read back as such. -/
theorem readConfidence_dump {confidence : Confidence}
    (haccepts : jsonbAccepts (confidence.dump floatRepr) = true)
    (hreads : ∀ value, confidence.value = .finite value →
      PyFloat.ofStr (floatRepr value) = some (.finite value)) :
    readConfidence (confidence.dump floatRepr) = some confidence := by
  obtain ⟨x, hvalid⟩ := confidence
  cases x with
  | finite value =>
    have hread : readFloat (Confidence.dump floatRepr ⟨.finite value, hvalid⟩) =
        some (.finite value) := hreads value rfl
    rw [readConfidence, hread]
    exact dif_pos hvalid
  | infinity negative => exact hvalid.elim
  | nan => cases haccepts

theorem modelValidate_modelDump_link {link : EntityLink}
    (haccepts : jsonbAccepts (link.modelDump floatRepr) = true)
    (hreads : ∀ value, link.confidence.value = .finite value →
      PyFloat.ofStr (floatRepr value) = some (.finite value)) :
    EntityLink.modelValidate (link.modelDump floatRepr) = some link := by
  have htext : ∀ text : Option String,
      readOptional readText (dumpOptional PyValue.str text) = some text := fun text =>
    readOptional_dumpOptional fun _ _ => ⟨PyValue.noConfusion, rfl⟩
  simp only [EntityLink.modelDump, jsonbAccepts, jsonbAcceptsEntries, Bool.and_eq_true]
    at haccepts
  have hconfidence := readConfidence_dump haccepts.2.2.2.2.1.2 hreads
  simp only [EntityLink.modelDump, EntityLink.modelValidate, field, fieldOr, List.lookup_cons,
    String.reduceBEq, readText, htext, readMember_value, hconfidence, Option.bind_some]
  rfl

theorem modelValidate_modelDump_assessment {assessment : HorizonAssessment}
    (haccepts : jsonbAccepts (assessment.modelDump floatRepr) = true)
    (hreads : ∀ value, assessment.confidence.value = .finite value →
      PyFloat.ofStr (floatRepr value) = some (.finite value)) :
    HorizonAssessment.modelValidate (assessment.modelDump floatRepr) = some assessment := by
  simp only [HorizonAssessment.modelDump, jsonbAccepts, jsonbAcceptsEntries, Bool.and_eq_true]
    at haccepts
  have hconfidence := readConfidence_dump haccepts.2.1.2 hreads
  simp only [HorizonAssessment.modelDump, HorizonAssessment.modelValidate, field, List.lookup_cons,
    String.reduceBEq, readMember_value, hconfidence, Option.bind_some]
  rfl

section Result

variable {result : AIContextResult} (hfits : FitsColumns floatRepr result)
  (hreads : ReadsBack floatRepr result)

include hfits hreads

theorem modelValidate_modelDump_horizon :
    ImpactHorizon.modelValidate (result.impactHorizon.modelDump floatRepr) =
      some result.impactHorizon := by
  have haccepts := hfits.impactHorizon
  rw [ImpactHorizon.modelDump] at haccepts
  simp only [jsonbAccepts, jsonbAcceptsEntries, Bool.and_eq_true] at haccepts
  obtain ⟨⟨_, hone⟩, ⟨_, hfive⟩, ⟨_, hten⟩, ⟨_, hlong⟩, _⟩ := haccepts
  have hone' := modelValidate_modelDump_assessment hone
    (hreads _ (by simp [AIContextResult.confidences]))
  have hfive' := modelValidate_modelDump_assessment hfive
    (hreads _ (by simp [AIContextResult.confidences]))
  have hten' := modelValidate_modelDump_assessment hten
    (hreads _ (by simp [AIContextResult.confidences]))
  have hlong' := modelValidate_modelDump_assessment hlong
    (hreads _ (by simp [AIContextResult.confidences]))
  simp only [ImpactHorizon.modelDump, ImpactHorizon.modelValidate, field, List.lookup_cons,
    String.reduceBEq, hone', hfive', hten', hlong', Option.bind_some]
  rfl

theorem validateEntities_dumpEntities :
    validateEntities (dumpEntities floatRepr result.entities) = some result.entities := by
  refine readList_dumpList fun link hlink => modelValidate_modelDump_link ?_
    (hreads _ (List.mem_append_left _ (List.mem_map_of_mem hlink)))
  exact jsonbAccepts_dumpList_iff.mp hfits.entities link hlink

end Result

/-! ## Stored rows -/

/-- The row as it is stored when it fits. -/
def storedRow (floatRepr : ℚ → String) (row : AIContextAnnotationRow) : StoredAnnotation :=
  { source := row.source
    externalId := row.externalId
    eventKind := row.eventKind
    modelName := row.modelName
    modelVersion := row.modelVersion
    eventTime := row.eventTime
    availableAt := row.availableAt
    ingestedAt := row.ingestedAt
    status := row.status
    eventType := row.eventType
    impactDirection := row.impactDirection
    impactDuration := row.impactDuration
    novelty := row.novelty
    duplicateClusterId := row.duplicateClusterId
    sourceReliability := row.sourceReliability
    impactHorizon := row.impactHorizon.modelDump floatRepr
    entities := dumpEntities floatRepr row.entities
    summary := row.summary
    rationale := row.rationale
    parseError := row.parseError }

/-- The texts of an enumeration fit their column. -/
theorem varchar_value {α : Type} [StrEnum α] {limit : Nat}
    (h : ∀ a ∈ (StrEnum.members : List α),
      hasNul (StrEnum.value a) = false ∧ (StrEnum.value a).length ≤ limit) (a : α) :
    varchar limit (StrEnum.value a) = .ok (StrEnum.value a) :=
  varchar_of_fits (h a (StrEnum.complete a)).1 (h a (StrEnum.complete a)).2

theorem mapM_option_eq_ok {ε α : Type} {f : α → Except ε α} {value : Option α}
    (h : ∀ a, value = some a → f a = .ok a) : value.mapM f = .ok value := by
  cases value with
  | none => rfl
  | some a =>
    show (some <$> f a) = _
    rw [h a rfl]
    rfl

theorem store_annotationRow (eventTime asOf : Instant) {result : AIContextResult}
    (hfits : FitsColumns floatRepr result) :
    store floatRepr (annotationRow eventTime asOf result) =
      .ok (storedRow floatRepr (annotationRow eventTime asOf result)) := by
  have hkind := @varchar_value EventKind _ 16 (by decide)
  have hstatus := @varchar_value ExtractionStatus _ 16 (by decide)
  have htype := @varchar_value EventType _ 32 (by decide)
  have hdirection := @varchar_value ImpactDirection _ 16 (by decide)
  have hduration := @varchar_value ImpactDurationType _ 16 (by decide)
  have hnovelty := @varchar_value Novelty _ 16 (by decide)
  have hreliability := @varchar_value SourceReliability _ 16 (by decide)
  have hcluster := mapM_option_eq_ok fun text htext =>
    varchar_of_fits (hfits.duplicateClusterId text htext).1 (hfits.duplicateClusterId text htext).2
  have herror : result.parseError.mapM textColumn = .ok result.parseError :=
    mapM_option_eq_ok fun text htext => by rw [textColumn, hfits.parseError text htext]; rfl
  simp only [store, annotationRow, hkind, hstatus, htype, hdirection, hduration, hnovelty,
    hreliability, hcluster, herror, varchar_of_fits hfits.source.1 hfits.source.2,
    varchar_of_fits hfits.externalId.1 hfits.externalId.2,
    varchar_of_fits hfits.modelName.1 hfits.modelName.2,
    varchar_of_fits hfits.modelVersion.1 hfits.modelVersion.2,
    jsonb_of_isJson (isJson_modelDump_horizon _) hfits.impactHorizon,
    jsonb_of_isJson (isJson_dumpEntities _) hfits.entities, textColumn, hfits.summary,
    hfits.rationale]
  rfl

theorem toResult_storedRow (eventTime asOf : Instant) {result : AIContextResult}
    (hfits : FitsColumns floatRepr result) (hreads : ReadsBack floatRepr result) :
    (storedRow floatRepr (annotationRow eventTime asOf result)).toResult = .ok result := by
  simp only [ StoredAnnotation.toResult, storedRow, annotationRow, StrEnum.lookup_value,
    modelValidate_modelDump_horizon hfits hreads, validateEntities_dumpEntities hfits hreads,
    validated]
  rfl

/-- Every column the reader reads is in the key or in the update list. -/
theorem toResult_setOutcome {old new : StoredAnnotation}
    (hkey : old.naturalKey = new.naturalKey) :
    (setOutcome.set old new).toResult = new.toResult := by
  simp only [ StoredAnnotation.naturalKey, AnnotationKey.mk.injEq] at hkey
  obtain ⟨hsource, hid, hkind, hname, hversion⟩ := hkey
  simp only [ StoredAnnotation.toResult, setOutcome, hsource, hid, hkind, hname, hversion]

/-! ## One call -/

/-- The key of a result's row. -/
def AIContextResult.key (result : AIContextResult) : AnnotationKey :=
  { source := result.source, externalId := result.externalId
    eventKind := StrEnum.value result.eventKind, modelName := result.modelName
    modelVersion := result.modelVersion }

/-- The rows a call submits. -/
def storedRows (floatRepr : ℚ → String) (results : List AIContextResult)
    (eventTime asOf : Instant) : List StoredAnnotation :=
  results.map fun result => storedRow floatRepr (annotationRow eventTime asOf result)

variable (floatRepr) in
theorem naturalKey_storedRows (results : List AIContextResult) (eventTime asOf : Instant) :
    (storedRows floatRepr results eventTime asOf).map StoredAnnotation.naturalKey =
      results.map AIContextResult.key := by
  rw [storedRows, List.map_map]
  rfl

theorem naturalKey_storedRow (floatRepr : ℚ → String) (row : AIContextAnnotationRow) :
    (storedRow floatRepr row).naturalKey = row.naturalKey := rfl

/-- The table of rows as their columns hold them. -/
def storedTable (floatRepr : ℚ → String) (annotations : Annotations) : StoredAnnotations :=
  annotations.map (naturalKey_storedRow floatRepr)

/-- The table that a call leaves when it goes through. -/
def persisted (floatRepr : ℚ → String) (annotations : StoredAnnotations)
    (results : List AIContextResult) (eventTime asOf : Instant) : StoredAnnotations :=
  annotations.insertAll setOutcome (storedRows floatRepr results eventTime asOf)

/-- When a result's row became available: at its first writing. -/
def firstAvailableAt (annotations : StoredAnnotations) (asOf : Instant)
    (result : AIContextResult) : Instant :=
  ((annotations.find result.key).map StoredAnnotation.availableAt).getD asOf

section Call

variable (annotations : StoredAnnotations) (eventTime asOf : Instant)
  {results : List AIContextResult}

theorem mapM_store (hfits : ∀ result ∈ results, FitsColumns floatRepr result) :
    results.mapM (fun result => store floatRepr (annotationRow eventTime asOf result)) =
      .ok (storedRows floatRepr results eventTime asOf) := by
  rw [Raise.mapM_eq_ok_iff, storedRows, List.forall₂_map_right_iff, List.forall₂_same]
  exact fun result hresult => store_annotationRow eventTime asOf (hfits result hresult)

/-- Results that fit are stored as the rows of the typed table, or refused like them. -/
theorem persistStored_storedTable (annotations : Annotations)
    (hfits : ∀ result ∈ results, FitsColumns floatRepr result) :
    persistStored floatRepr (storedTable floatRepr annotations) results eventTime asOf =
      ((persistAnnotations annotations results eventTime asOf).map fun written =>
        (storedTable floatRepr written.1, written.2)).mapError fun e =>
          { cls := .other e
            text := "ON CONFLICT DO UPDATE command cannot affect row a second time" } := by
  have hrows : storedRows floatRepr results eventTime asOf =
      (results.map (annotationRow eventTime asOf)).map (storedRow floatRepr) := by
    rw [List.map_map]
    rfl
  rw [persistStored, mapM_store eventTime asOf hfits, hrows]
  exact congrArg (Except.mapError _)
    (upsertEventRows_map (naturalKey_storedRow floatRepr) (fun _ _ _ => rfl) annotations _)

theorem persistStored_eq (hfits : ∀ result ∈ results, FitsColumns floatRepr result) :
    persistStored floatRepr annotations results eventTime asOf =
      if (results.map AIContextResult.key).Nodup then
        .ok (persisted floatRepr annotations results eventTime asOf, results.length)
      else
        .error {
          cls := .other .cardinalityViolation
          text := "ON CONFLICT DO UPDATE command cannot affect row a second time" } := by
  rw [persistStored, mapM_store eventTime asOf hfits]
  show (upsertEventRows setOutcome .update annotations _).mapError _ = _
  split_ifs with hdistinct
  · rw [← naturalKey_storedRows floatRepr results eventTime asOf] at hdistinct
    rw [(upsertEventRows_ok_iff ..).mpr ⟨hdistinct, rfl⟩, storedRows, List.length_map]
    rfl
  · have hne : results ≠ [] := by
      rintro rfl
      exact hdistinct List.nodup_nil
    rw [← naturalKey_storedRows floatRepr results eventTime asOf] at hdistinct
    rw [upsertEventRows, if_neg (by simpa [storedRows] using hne), if_neg hdistinct]
    rfl

variable (hdistinct : (results.map AIContextResult.key).Nodup)
  (hfits : ∀ result ∈ results, FitsColumns floatRepr result)
  (hreads : ∀ result ∈ results, ReadsBack floatRepr result)

include hdistinct hfits hreads

/-- The row of a result after the call decodes to it. -/
theorem exists_row_of_result {result : AIContextResult} (hresult : result ∈ results) :
    ∃ row ∈ (persisted floatRepr annotations results eventTime asOf).rows,
      row.naturalKey = result.key ∧ row.toResult = .ok result ∧
      row.availableAt = firstAvailableAt annotations asOf result := by
  have hnodup : ((storedRows floatRepr results eventTime asOf).map
      StoredAnnotation.naturalKey).Nodup := by
    rw [naturalKey_storedRows]
    exact hdistinct
  have hnew : storedRow floatRepr (annotationRow eventTime asOf result) ∈
      storedRows floatRepr results eventTime asOf := List.mem_map_of_mem hresult
  have hdecodes := toResult_storedRow eventTime asOf (hfits result hresult)
    (hreads result hresult)
  have hfind := Table.find_insertAll_of_mem setOutcome hnodup hnew annotations
  refine ⟨_, ((Table.find_eq_some_iff ..).mp hfind).1, ((Table.find_eq_some_iff ..).mp hfind).2,
    ?_⟩
  change _ ∧ _ = ((annotations.find (storedRow floatRepr
    (annotationRow eventTime asOf result)).naturalKey).map StoredAnnotation.availableAt).getD asOf
  cases hold : annotations.find (storedRow floatRepr
      (annotationRow eventTime asOf result)).naturalKey with
  | none => exact ⟨hdecodes, rfl⟩
  | some old =>
    exact ⟨(toResult_setOutcome (Table.key_of_find hold)).trans hdecodes, rfl⟩

/-- A row after the call is that of a result, or one the call leaves alone. -/
theorem mem_persisted_cases {row : StoredAnnotation}
    (hrow : row ∈ (persisted floatRepr annotations results eventTime asOf).rows) :
    (∃ result, row.toResult = .ok result) ∨
      (row ∈ annotations.rows ∧ row.naturalKey ∉ results.map AIContextResult.key) := by
  by_cases hkey : row.naturalKey ∈ results.map AIContextResult.key
  · obtain ⟨result, hresult, hsame⟩ := List.mem_map.mp hkey
    obtain ⟨row', hrow', hkey', hdecodes, _⟩ :=
      exists_row_of_result annotations eventTime asOf hdistinct hfits hreads hresult
    rw [Table.eq_of_key_eq _ hrow hrow' (hsame.symm.trans hkey'.symm)]
    exact .inl ⟨result, hdecodes⟩
  · rw [← naturalKey_storedRows floatRepr results eventTime asOf] at hkey ⊢
    rw [persisted, Table.mem_rows_iff, Table.find_insertAll_of_not_mem _ hkey,
      ← Table.mem_rows_iff] at hrow
    exact .inr ⟨hrow, hkey⟩

omit hdistinct hfits hreads in
theorem mem_persisted_of_not_mem {row : StoredAnnotation} (hrow : row ∈ annotations.rows)
    (hkey : row.naturalKey ∉ results.map AIContextResult.key) :
    row ∈ (persisted floatRepr annotations results eventTime asOf).rows := by
  rw [← naturalKey_storedRows floatRepr results eventTime asOf] at hkey
  rw [persisted, Table.mem_rows_iff, Table.find_insertAll_of_not_mem _ hkey,
    ← Table.mem_rows_iff]
  exact hrow

/-- A result is among those loaded by a later cutoff exactly when every row of its item that
is available by then, and that the call leaves alone, decodes. -/
theorem loaded_iff {result : AIContextResult} (hresult : result ∈ results) (order : StoredOrder)
    {cutoff : Instant} (hcutoff : firstAvailableAt annotations asOf result ≤ cutoff) :
    (∃ loaded, loadStored order (persisted floatRepr annotations results eventTime asOf)
        result.source result.externalId result.eventKind cutoff none = .ok loaded ∧
          result ∈ loaded) ↔
      ∀ row ∈ annotations.rows, row.naturalKey ∉ results.map AIContextResult.key →
        storedFilter result.source result.externalId (StrEnum.value result.eventKind) cutoff none
          row = true →
        ∃ other, row.toResult = .ok other := by
  constructor
  · rintro ⟨loaded, hload, _⟩ row hrow hkey hfilter
    have hall := (Raise.forall_mem_iff_of_mapM hload fun _ => True).mp fun _ _ => trivial
    obtain ⟨other, hdecodes, _⟩ := hall row ((order.mem_arrange_iff _ _).mpr
      (List.mem_filter.mpr
        ⟨mem_persisted_of_not_mem annotations eventTime asOf hrow hkey, hfilter⟩))
    exact ⟨other, hdecodes⟩
  · intro hdecode
    have hall : ∀ row ∈ order.arrange ((persisted floatRepr annotations results eventTime
        asOf).rows.filter (storedFilter result.source result.externalId
          (StrEnum.value result.eventKind) cutoff none)),
        ∃ other, row.toResult = .ok other := by
      intro row hrow
      obtain ⟨hrow, hfilter⟩ := List.mem_filter.mp ((order.mem_arrange_iff _ _).mp hrow)
      obtain hdecodes | ⟨hold, hkey⟩ :=
        mem_persisted_cases annotations eventTime asOf hdistinct hfits hreads hrow
      · exact hdecodes
      · exact hdecode row hold hkey hfilter
    obtain ⟨loaded, hload⟩ := Raise.exists_mapM_eq_ok hall
    obtain ⟨row, hrow, hkey, hdecodes, havailable⟩ :=
      exists_row_of_result annotations eventTime asOf hdistinct hfits hreads hresult
    have hfilter : storedFilter result.source result.externalId
        (StrEnum.value result.eventKind) cutoff none row = true := by
      simp only [ StoredAnnotation.naturalKey, AIContextResult.key, AnnotationKey.mk.injEq] at hkey
      simp [storedFilter, hkey.1, hkey.2.1, hkey.2.2.1, havailable, hcutoff]
    have hmem : ∃ other ∈ loaded, other = result :=
      (Raise.exists_mem_iff_of_mapM hload _).mpr ⟨row, (order.mem_arrange_iff _ _).mpr
        (List.mem_filter.mpr ⟨hrow, hfilter⟩), result, hdecodes, rfl⟩
    exact ⟨loaded, hload, by simpa using hmem⟩

end Call

/-! ## Whole runs -/

/-- Every row is one that `_to_result` accepts. -/
def Decodes (annotations : StoredAnnotations) : Prop :=
  ∀ row ∈ annotations.rows, ∃ result, row.toResult = .ok result

theorem decodes_persisted {annotations : StoredAnnotations} {results : List AIContextResult}
    {eventTime asOf : Instant} (hdistinct : (results.map AIContextResult.key).Nodup)
    (hfits : ∀ result ∈ results, FitsColumns floatRepr result)
    (hreads : ∀ result ∈ results, ReadsBack floatRepr result) (hdecodes : Decodes annotations) :
    Decodes (persisted floatRepr annotations results eventTime asOf) := by
  intro row hrow
  obtain hresult | ⟨hold, _⟩ :=
    mem_persisted_cases annotations eventTime asOf hdistinct hfits hreads hrow
  · exact hresult
  · exact hdecodes row hold

/-- The table once the call's transaction has ended. -/
def PersistCall.commitStored (floatRepr : ℚ → String) (annotations : StoredAnnotations)
    (call : PersistCall) : StoredAnnotations :=
  match persistStored floatRepr annotations call.results call.eventTime call.asOf with
  | .ok (written, _) => written
  | .error _ => annotations

/-- The same calls leave the typed table and its columns. -/
theorem storedTable_foldl_commit {calls : List PersistCall}
    (hcalls : ∀ call ∈ calls, ∀ result ∈ call.results, FitsColumns floatRepr result)
    (annotations : Annotations) :
    calls.foldl (PersistCall.commitStored floatRepr) (storedTable floatRepr annotations) =
      storedTable floatRepr
        (calls.foldl (fun annotations call => call.commit annotations) annotations) := by
  induction calls generalizing annotations with
  | nil => rfl
  | cons call rest ih =>
    have hcommit : call.commitStored floatRepr (storedTable floatRepr annotations) =
        storedTable floatRepr (call.commit annotations) := by
      unfold PersistCall.commitStored PersistCall.commit
      rw [persistStored_storedTable _ _ annotations (hcalls call List.mem_cons_self)]
      cases persistAnnotations annotations call.results call.eventTime call.asOf <;> rfl
    rw [List.foldl_cons, hcommit]
    exact ih (fun later hlater => hcalls later (List.mem_cons_of_mem call hlater)) _

/-- Calls alone never leave a row that does not decode. -/
theorem decodes_foldl_commitStored {calls : List PersistCall}
    (hcalls : ∀ call ∈ calls, ∀ result ∈ call.results,
      FitsColumns floatRepr result ∧ ReadsBack floatRepr result)
    {annotations : StoredAnnotations} (hdecodes : Decodes annotations) :
    Decodes (calls.foldl (PersistCall.commitStored floatRepr) annotations) := by
  induction calls generalizing annotations with
  | nil => exact hdecodes
  | cons call rest ih =>
    refine ih (fun later hlater => hcalls later (List.mem_cons_of_mem call hlater)) ?_
    have hresults := hcalls call List.mem_cons_self
    rw [PersistCall.commitStored,
      persistStored_eq annotations _ _ fun result hresult => (hresults result hresult).1]
    by_cases hdistinct : (call.results.map AIContextResult.key).Nodup
    · rw [if_pos hdistinct]
      exact decodes_persisted hdistinct (fun result hresult => (hresults result hresult).1)
        (fun result hresult => (hresults result hresult).2) hdecodes
    · rw [if_neg hdistinct]
      exact hdecodes

variable (floatRepr) in
/-- What was persisted is loaded by any cutoff from `as_of` and the first writing on, if the
other rows of the item decode.  The rows that a call writes do. -/
theorem persisted_is_loaded (annotations : StoredAnnotations) (results : List AIContextResult)
    (eventTime asOf : Instant) (hdistinct : (results.map AIContextResult.key).Nodup)
    (hfits : ∀ result ∈ results, FitsColumns floatRepr result)
    (hreads : ∀ result ∈ results, ReadsBack floatRepr result) :
    ∃ written count, persistStored floatRepr annotations results eventTime asOf =
        .ok (written, count) ∧
      (Decodes annotations → Decodes written) ∧
      ∀ result ∈ results, ∀ (order : StoredOrder) (cutoff : Instant), asOf ≤ cutoff →
        firstAvailableAt annotations asOf result ≤ cutoff →
        ((∃ loaded, loadStored order written result.source result.externalId result.eventKind
            cutoff none = .ok loaded ∧ result ∈ loaded) ↔
          ∀ row ∈ annotations.rows, row.naturalKey ∉ results.map AIContextResult.key →
            storedFilter result.source result.externalId (StrEnum.value result.eventKind) cutoff
              none row = true →
            ∃ other, row.toResult = .ok other) := by
  refine ⟨persisted floatRepr annotations results eventTime asOf, results.length, ?_, ?_, ?_⟩
  · rw [persistStored_eq annotations eventTime asOf hfits, if_pos hdistinct]
  · exact decodes_persisted hdistinct hfits hreads
  · intro result hresult order cutoff _ hcutoff
    exact loaded_iff annotations eventTime asOf hdistinct hfits hreads hresult order hcutoff

/-- An item that one version of a model could not read. -/
def unreadable (modelVersion : String) : AIContextResult :=
  { status := .unknown, source := "dart", externalId := "20260105000123"
    eventKind := .disclosure, modelName := "claude", modelVersion, generatedAt := 3
    parseError := some "model did not return JSON" }

theorem fitsColumns_unreadable : FitsColumns (fun _ => "0.0") (unreadable "v1") where
  source := ⟨by decide, by decide⟩
  externalId := ⟨by decide, by decide⟩
  modelName := ⟨by decide, by decide⟩
  modelVersion := ⟨by decide, by decide⟩
  duplicateClusterId := nofun
  impactHorizon := by decide
  entities := by decide
  summary := by decide
  rationale := by decide
  parseError := by rintro _ ⟨⟩; decide

theorem readsBack_unreadable : ReadsBack (fun _ => "0.0") (unreadable "v1") := by
  intro confidence hconfidence value hvalue
  have hzero : confidence.value = .finite 0 := by
    simp only [AIContextResult.confidences, unreadable, unknownHorizon, List.map_nil,
      List.nil_append, List.mem_cons, List.not_mem_nil, or_false, or_self] at hconfidence
    rw [hconfidence]
  rw [hzero] at hvalue
  cases hvalue
  decide +kernel

theorem unreadable_is_loaded :
    ∃ written count, persistStored (fun _ => "0.0") Table.empty [unreadable "v1"] 1 3 =
        .ok (written, count) ∧
      ∃ loaded, loadStored (OrderBy.byColumn StoredAnnotation.eventTime) written "dart"
        "20260105000123" .disclosure 3 none = .ok loaded ∧ unreadable "v1" ∈ loaded := by
  obtain ⟨written, count, hwritten, _, hload⟩ := persisted_is_loaded (fun _ => "0.0") Table.empty
    [unreadable "v1"] 1 3 (by decide) (by simpa using fitsColumns_unreadable)
    (by simpa using readsBack_unreadable)
  exact ⟨written, count, hwritten, (hload (unreadable "v1") (by simp) _ 3 le_rfl
    (by decide)).mpr fun _ hrow => absurd hrow List.not_mem_nil⟩

/-- A row of an older version, of an event type the enumeration does not have. -/
def rumor : StoredAnnotation :=
  { storedRow (fun _ => "0.0") (annotationRow 1 2 (unreadable "v0")) with eventType := "rumor" }

/-- One row that does not decode blocks every load of its item. -/
theorem rumor_blocks_loading :
    ∃ written count, persistStored (fun _ => "0.0")
        ⟨[rumor], List.nodup_singleton _⟩ [unreadable "v1"] 1 3 = .ok (written, count) ∧
      ∀ order : StoredOrder, ¬ ∃ loaded, loadStored order written "dart" "20260105000123"
        .disclosure 3 none = .ok loaded ∧ unreadable "v1" ∈ loaded := by
  have hdistinct : ([unreadable "v1"].map AIContextResult.key).Nodup := by decide
  have hfits : ∀ result ∈ [unreadable "v1"], FitsColumns (fun _ => "0.0") result := by
    simpa using fitsColumns_unreadable
  refine ⟨_, _, (persistStored_eq _ 1 3 hfits).trans (if_pos hdistinct), fun order hloaded => ?_⟩
  have hdecode := (loaded_iff ⟨[rumor], List.nodup_singleton _⟩ 1 3 hdistinct hfits
    (by simpa using readsBack_unreadable) (List.mem_singleton_self _) order
    (show _ ≤ (3 : Instant) by decide)).mp hloaded
  obtain ⟨_, hresult⟩ := hdecode rumor (List.mem_singleton_self _) (by decide) (by decide)
  cases hresult

end AiContext
end QuantPlatform
