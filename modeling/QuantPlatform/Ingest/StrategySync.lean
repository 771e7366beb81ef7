import QuantPlatform.Db.Strategy
import QuantPlatform.Research.Refinement

namespace QuantPlatform
namespace Ingest

open QuantPlatform.Core Db Effects Files Relational Research Validation

section Sync

variable (registry : StrategyRegistry) (pydantic : Pydantic) (sessionOffset : Int → Int)
  (now : Instant) (tree : FileSystem)

/-- The arguments for the row of a spec.  What `json.loads` makes of the dump is kept as
the dump. -/
def specValues (spec : StrategySpec) : SpecValues where
  strategyId := spec.strategyId
  version := spec.version
  name := spec.name
  status := StrEnum.value spec.status
  source := StrEnum.value spec.source
  specCreatedAt := spec.createdAt
  specJson := spec.modelDump pydantic

def syncOne (strategyId version : String) : Program StrategyRows Raised Unit := do
  let spec ← Program.lift (registry.load pydantic tree strategyId version)
  syncFromSpec sessionOffset now (specValues pydantic spec)

def syncVersion (strategyId : String) (count : Nat) (version : String) :
    Program StrategyRows Raised Nat := do
  syncOne registry pydantic sessionOffset now tree strategyId version
  return count + 1

def syncStrategy (count : Nat) (strategyId : String) : Program StrategyRows Raised Nat := do
  let versions ← Program.lift (registry.listVersions tree strategyId)
  versions.foldlM (syncVersion registry pydantic sessionOffset now tree strategyId) count

/-- `sync_all`: how many rows were written. -/
def syncAll : Program StrategyRows Raised Nat := do
  let strategyIds ← Program.lift (registry.listStrategyIds tree)
  strategyIds.foldlM (syncStrategy registry pydantic sessionOffset now tree) 0

end Sync

/-- The row says of the spec what the spec says.  A naive creation time is no instant. -/
structure Agrees (pydantic : Pydantic) (row : StrategyRegistryRow) (spec : StrategySpec) :
    Prop where
  name : row.name = spec.name
  status : row.status = StrEnum.value spec.status
  source : row.source = StrEnum.value spec.source
  specCreatedAt : ∃ offset, spec.createdAt.utcoffset = some offset ∧
    row.specCreatedAt = spec.createdAt.wallTime - offset
  specJson : row.specJson = spec.modelDump pydantic

/-- The columns take the spec as it is, and its creation time is an instant. -/
structure Mirrorable (pydantic : Pydantic) (spec : StrategySpec) : Prop where
  encodable : spec.Encodable
  strategyId : spec.strategyId.length ≤ 64
  version : spec.version.length ≤ 32
  accepts : jsonbAccepts (spec.modelDump pydantic) = true
  aware : spec.createdAt.utcoffset.isSome

theorem isJson_dumpFloat (pydantic : Pydantic) (x : PyFloat) :
    isJson (dumpFloat pydantic x) = true := by
  cases x <;> rfl

theorem isJson_modelDump (pydantic : Pydantic) (spec : StrategySpec) :
    isJson (spec.modelDump pydantic) = true := by
  have hnotes := @isJson_dumpOptional String .str fun _ => rfl
  have hpine := @isJson_dumpOptional _ (PineValidationAssumptions.modelDump pydantic)
    fun pine => by
      simp [PineValidationAssumptions.modelDump, PineValidationAssumptions.entries, isJson,
        isJsonEntries, isJson_dumpTexts, isJson_dumpFloat, hnotes]
  simp [StrategySpec.modelDump, StrategySpec.entries, isJson, isJsonEntries, isJson_dumpTexts,
    hpine]

section OneSync

variable {registry : StrategyRegistry} {pydantic : Pydantic} {tree : FileSystem}
  {catalog : Catalog}

/-- The row of a spec that was not there before. -/
def specRow (pydantic : Pydantic) (sessionOffset : Int → Int) (now : Instant)
    (spec : StrategySpec) : StrategyRegistryRow where
  strategyId := spec.strategyId
  version := spec.version
  name := spec.name
  status := StrEnum.value spec.status
  source := StrEnum.value spec.source
  specCreatedAt := timestamptz sessionOffset spec.createdAt
  syncedAt := now
  specJson := spec.modelDump pydantic

theorem toRow_specValues (sessionOffset : Int → Int) (now : Instant) {spec : StrategySpec}
    (h : Mirrorable pydantic spec) :
    (specValues pydantic spec).toRow sessionOffset now =
      .ok (specRow pydantic sessionOffset now spec) := by
  have haccepts := h.accepts
  simp only [StrategySpec.modelDump, StrategySpec.entries, jsonbAccepts, jsonbAcceptsEntries,
    Bool.and_eq_true, Bool.not_eq_true'] at haccepts
  obtain ⟨⟨_, hid⟩, ⟨_, hname⟩, ⟨_, hversion⟩, _⟩ := haccepts
  have hstatus : varchar 32 (StrEnum.value spec.status) = .ok (StrEnum.value spec.status) := by
    cases spec.status <;> exact varchar_of_fits (by decide) (by decide)
  have hsource : varchar 32 (StrEnum.value spec.source) = .ok (StrEnum.value spec.source) := by
    cases spec.source <;> exact varchar_of_fits (by decide) (by decide)
  have hjson := jsonb_of_isJson (isJson_modelDump pydantic spec) h.accepts
  simp only [SpecValues.toRow, specValues, varchar_of_fits hid h.strategyId,
    varchar_of_fits hversion h.version, textColumn, hname, hstatus, hsource, hjson]
  rfl

/-- Every spec that is there fits the columns. -/
def AllMirrorable (pydantic : Pydantic) (catalog : Catalog) : Prop :=
  ∀ strategyId version spec, catalog strategyId version = some spec → Mirrorable pydantic spec

variable (sessionOffset : Int → Int) (now : Instant)
  (h : Represents registry pydantic tree catalog) (hfits : AllMirrorable pydantic catalog)

include h hfits

theorem syncOne_eq {strategyId version : String} {spec : StrategySpec}
    (hspec : catalog strategyId version = some spec) (rows : StrategyRows) :
    syncOne registry pydantic sessionOffset now tree strategyId version rows =
      (.ok (), rows.insert syncUpdate (specRow pydantic sessionOffset now spec)) := by
  have hmirrorable := hfits _ _ _ hspec
  have hload : Program.lift (registry.load pydantic tree strategyId version) rows =
      (.ok spec, rows) := by
    rw [Program.lift, h.load_eq_ok hspec hmirrorable.encodable]
  rw [syncOne, Program.bind_of_ok hload, syncFromSpec_of_toRow (toRow_specValues _ _ hmirrorable)]

/-- The versions of a strategy are written one after the other. -/
theorem syncVersions_eq {strategyId : String} {versions : List String}
    (hversions : ∀ version ∈ versions, (catalog strategyId version).isSome) (count : Nat)
    (rows : StrategyRows) :
    versions.foldlM (syncVersion registry pydantic sessionOffset now tree strategyId) count
        rows =
      (.ok (count + versions.length), rows.insertAll syncUpdate
        ((versions.filterMap (catalog strategyId)).map
          (specRow pydantic sessionOffset now))) := by
  induction versions generalizing count rows with
  | nil => rfl
  | cons version versions ih =>
    rw [List.forall_mem_cons] at hversions
    obtain ⟨spec, hspec⟩ := Option.isSome_iff_exists.mp hversions.1
    have hfirst : syncVersion registry pydantic sessionOffset now tree strategyId count version
        rows = (.ok (count + 1),
          rows.insert syncUpdate (specRow pydantic sessionOffset now spec)) := by
      rw [syncVersion, Program.bind_of_ok (syncOne_eq sessionOffset now h hfits hspec rows)]
      rfl
    rw [List.foldlM_cons, Program.bind_of_ok hfirst, ih hversions.2,
      List.filterMap_cons_some hspec, List.map_cons, List.length_cons]
    rw [Nat.add_right_comm, ← Nat.add_assoc]
    rfl

/-- A strategy whose versions are listed has them written. -/
theorem syncStrategy_eq {strategyId : String} {versions : List String}
    (hlisted : registry.listVersions tree strategyId = .ok versions)
    (hversions : ∀ version ∈ versions, (catalog strategyId version).isSome) (count : Nat)
    (rows : StrategyRows) :
    syncStrategy registry pydantic sessionOffset now tree count strategyId rows =
      (.ok (count + versions.length), rows.insertAll syncUpdate
        ((versions.filterMap (catalog strategyId)).map
          (specRow pydantic sessionOffset now))) := by
  have hlist : Program.lift (registry.listVersions tree strategyId) rows =
      (.ok versions, rows) := by
    rw [Program.lift, hlisted]
  rw [syncStrategy, Program.bind_of_ok hlist]
  exact syncVersions_eq sessionOffset now h hfits hversions count rows

omit h hfits in
/-- The versions that are listed give the specs that are there. -/
theorem mem_filterMap_versions {strategyId : String} {versions : List String}
    (hmem : ∀ version, version ∈ versions ↔ (catalog strategyId version).isSome)
    {spec : StrategySpec} :
    spec ∈ versions.filterMap (catalog strategyId) ↔
      ∃ version, catalog strategyId version = some spec := by
  rw [List.mem_filterMap]
  constructor
  · intro hspec
    obtain ⟨version, _, hspec⟩ := hspec
    exact ⟨version, hspec⟩
  · intro hspec
    obtain ⟨version, hspec⟩ := hspec
    exact ⟨version, (hmem version).mpr (by rw [hspec]; rfl), hspec⟩

omit hfits in
/-- Versions in ascending order give each pair once. -/
theorem nodup_keys_versions (strategyId : String) {versions : List String}
    (hsorted : versions.SortedLT) :
    ((versions.filterMap (catalog strategyId)).map fun spec =>
      (spec.strategyId, spec.version)).Nodup := by
  rw [List.Nodup, List.pairwise_map, List.pairwise_filterMap]
  refine (List.sortedLT_iff_pairwise.mp hsorted).imp fun {a b} hab x hx y hy hxy => ?_
  have hversion := (Prod.mk.inj hxy).2
  rw [(h.stored _ _ _ hx).2.1, (h.stored _ _ _ hy).2.1] at hversion
  exact absurd hversion (ne_of_lt hab)

/-- What the strategies' versions leave to be written, each pair once. -/
theorem exists_syncStrategies_eq {strategyIds : List String} (hnodup : strategyIds.Nodup)
    (hholds : ∀ strategyId ∈ strategyIds, catalog.Holds strategyId) :
    ∃ written : List StrategySpec,
      (written.map fun spec => (spec.strategyId, spec.version)).Nodup ∧
      (∀ spec, spec ∈ written ↔
        ∃ strategyId ∈ strategyIds, ∃ version, catalog strategyId version = some spec) ∧
      ∀ (count : Nat) (rows : StrategyRows), ∃ total,
        strategyIds.foldlM (syncStrategy registry pydantic sessionOffset now tree) count rows =
          (.ok total, rows.insertAll syncUpdate
            (written.map (specRow pydantic sessionOffset now))) := by
  induction strategyIds with
  | nil => exact ⟨[], List.nodup_nil, by simp, fun count rows => ⟨count, rfl⟩⟩
  | cons strategyId rest ih =>
    rw [List.nodup_cons] at hnodup
    rw [List.forall_mem_cons] at hholds
    obtain ⟨written, hkeys, hwritten, hrest⟩ := ih hnodup.2 hholds.2
    obtain ⟨versions, hlisted, hsorted, hmem⟩ := h.listVersions_eq_ok hholds.1
    refine ⟨versions.filterMap (catalog strategyId) ++ written, ?_, ?_, ?_⟩
    · rw [List.map_append, List.nodup_append]
      refine ⟨nodup_keys_versions h strategyId hsorted, hkeys, ?_⟩
      -- the specs of another strategy have another id
      intro a ha b hb hab
      obtain ⟨x, hx, rfl⟩ := List.mem_map.mp ha
      obtain ⟨y, hy, rfl⟩ := List.mem_map.mp hb
      obtain ⟨version, hx⟩ := (mem_filterMap_versions hmem).mp hx
      obtain ⟨strategyId', hmem', version', hy⟩ := (hwritten y).mp hy
      have hid := (Prod.mk.inj hab).1
      rw [(h.stored _ _ _ hx).1, (h.stored _ _ _ hy).1] at hid
      exact hnodup.1 (hid ▸ hmem')
    · intro spec
      rw [List.mem_append, mem_filterMap_versions hmem, hwritten, List.exists_mem_cons_iff]
    · intro count rows
      have hfirst := syncStrategy_eq sessionOffset now h hfits hlisted
        (fun version hversion => (hmem version).mp hversion) count rows
      obtain ⟨total, htotal⟩ := hrest (count + versions.length)
        (rows.insertAll syncUpdate ((versions.filterMap (catalog strategyId)).map
          (specRow pydantic sessionOffset now)))
      refine ⟨total, ?_⟩
      rw [List.foldlM_cons, Program.bind_of_ok hfirst, htotal, Table.insertAll, Table.insertAll,
        Table.insertAll, List.map_append, List.foldl_append]

/-- A sync writes the row of every spec that is there, each once. -/
theorem exists_syncAll_eq :
    ∃ written : List StrategySpec,
      (written.map fun spec => (spec.strategyId, spec.version)).Nodup ∧
      (∀ spec, spec ∈ written ↔
        ∃ strategyId version, catalog strategyId version = some spec) ∧
      ∀ rows, ∃ total, syncAll registry pydantic sessionOffset now tree rows =
        (.ok total, rows.insertAll syncUpdate
          (written.map (specRow pydantic sessionOffset now))) := by
  obtain ⟨strategyIds, hids, hsorted, hmem⟩ := h.listStrategyIds_eq_ok
  have hnodup : strategyIds.Nodup :=
    (List.sortedLT_iff_pairwise.mp hsorted).imp fun hlt => ne_of_lt hlt
  obtain ⟨written, hkeys, hwritten, hrun⟩ := exists_syncStrategies_eq
    sessionOffset now h hfits hnodup fun strategyId hid => (hmem strategyId).mp hid
  refine ⟨written, hkeys, fun spec => ?_, fun rows => ?_⟩
  · rw [hwritten]
    constructor
    · intro hspec
      obtain ⟨strategyId, _, version, hspec⟩ := hspec
      exact ⟨strategyId, version, hspec⟩
    · intro hspec
      obtain ⟨strategyId, version, hspec⟩ := hspec
      exact ⟨strategyId, (hmem _).mpr ⟨version, spec, hspec⟩, version, hspec⟩
  · obtain ⟨total, htotal⟩ := hrun 0 rows
    refine ⟨total, ?_⟩
    have hlisted : Program.lift (registry.listStrategyIds tree) rows =
        (.ok strategyIds, rows) := by
      rw [Program.lift, hids]
    rw [syncAll, Program.bind_of_ok hlisted, htotal]

end OneSync

end Ingest
end QuantPlatform
