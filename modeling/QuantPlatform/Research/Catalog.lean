/-
The registry as a finite map from strategies and versions to specs.

A catalog says what the registry is for.  A directory tree represents a catalog when
below the base directory it holds the catalog's strategies, their versions and nothing
else.  Saving keeps that up as long as both ids of the spec are names, so that no two
pairs share a path and every path has the two levels that listing looks at.  What the
reads return is then read off the catalog, provided the files can be read back and the
creation times of a strategy compared.
-/
import QuantPlatform.Research.Registry

namespace QuantPlatform
namespace Research

open QuantPlatform.Core Effects Files

/-- What was last saved under each pair. -/
abbrev Catalog := String → String → Option StrategySpec

structure SaveCall where
  spec : StrategySpec
  overwrite : Bool

namespace Catalog

def empty : Catalog := fun _ _ => none

def Holds (catalog : Catalog) (strategyId : String) : Prop :=
  ∃ version spec, catalog strategyId version = some spec

def update (catalog : Catalog) (spec : StrategySpec) : Catalog := fun strategyId version =>
  if strategyId = spec.strategyId ∧ version = spec.version then some spec
  else catalog strategyId version

/-- Saving without `overwrite` leaves a pair alone that is there. -/
def save (catalog : Catalog) (call : SaveCall) : Catalog :=
  if call.overwrite = true ∨ catalog call.spec.strategyId call.spec.version = none then
    catalog.update call.spec
  else catalog

def after (calls : List SaveCall) : Catalog := calls.foldl save empty

/-- Of each strategy either all specs were created at naive datetimes or none. -/
def Comparable (catalog : Catalog) : Prop :=
  ∀ strategyId version version' spec spec', catalog strategyId version = some spec →
    catalog strategyId version' = some spec' →
    (spec.createdAt.utcoffset.isSome ↔ spec'.createdAt.utcoffset.isSome)

/-- Every file can be read back, and the latest version found. -/
structure Readable (catalog : Catalog) : Prop where
  encodable : ∀ strategyId version spec, catalog strategyId version = some spec → spec.Encodable
  comparable : catalog.Comparable

@[simp] theorem update_self (catalog : Catalog) (spec : StrategySpec) :
    catalog.update spec spec.strategyId spec.version = some spec := if_pos ⟨rfl, rfl⟩

theorem update_of_ne (catalog : Catalog) {spec : StrategySpec} {strategyId version : String}
    (hne : ¬ (strategyId = spec.strategyId ∧ version = spec.version)) :
    catalog.update spec strategyId version = catalog strategyId version := if_neg hne

theorem holds_update_iff {catalog : Catalog} {spec : StrategySpec} {strategyId : String} :
    (catalog.update spec).Holds strategyId ↔
      strategyId = spec.strategyId ∨ catalog.Holds strategyId := by
  by_cases hid : strategyId = spec.strategyId
  · rw [hid]
    exact iff_of_true ⟨spec.version, spec, catalog.update_self spec⟩ (.inl rfl)
  · have hsame : ∀ version, catalog.update spec strategyId version = catalog strategyId version :=
      fun version => catalog.update_of_ne fun hboth => hid hboth.1
    rw [or_iff_right hid]
    unfold Holds
    simp only [hsame]

end Catalog

/-- Both ids of the spec are names of their own on the way to its file. -/
structure StrategySpec.Addressable (spec : StrategySpec) : Prop where
  strategyId : IsName spec.strategyId
  version : IsName (spec.version ++ ".json")

/-- There is a directory with nothing below it. -/
structure EmptyDirectory (tree : FileSystem) (dir : List String) : Prop where
  opens : Opens tree dir
  below : ∀ path, path ≠ [] → nodeAt tree (dir ++ path) = none

section Represents

variable (registry : StrategyRegistry) (pydantic : Pydantic)

/-- The tree holds the catalog below the base directory, and nothing else. -/
structure Represents (tree : FileSystem) (catalog : Catalog) : Prop where
  opens : Opens tree registry.baseDir
  strategy : ∀ strategyId, catalog.Holds strategyId →
    nodeAt tree (registry.baseDir ++ [strategyId]) = some .directory
  no_strategy : ∀ strategyId, ¬ catalog.Holds strategyId →
    nodeAt tree (registry.baseDir ++ [strategyId]) = none
  file : ∀ strategyId name node,
    nodeAt tree (registry.baseDir ++ [strategyId] ++ [name]) = some node ↔
      ∃ version spec, catalog strategyId version = some spec ∧ name = version ++ ".json" ∧
        node = .file (spec.modelDump pydantic)
  stored : ∀ strategyId version spec, catalog strategyId version = some spec →
    spec.strategyId = strategyId ∧ spec.version = version ∧ spec.Addressable ∧
      pydantic.ReadsBack spec

variable {registry pydantic} {tree : FileSystem} {catalog : Catalog}

theorem represents_empty (h : EmptyDirectory tree registry.baseDir) :
    Represents registry pydantic tree Catalog.empty where
  opens := h.opens
  strategy strategyId hholds := by
    obtain ⟨version, spec, hspec⟩ := hholds
    cases hspec
  no_strategy strategyId _ := h.below [strategyId] (by simp)
  file strategyId name node := by
    rw [List.append_assoc, h.below _ (by simp)]
    simp [Catalog.empty]
  stored strategyId version spec h := by cases h

theorem append_json_inj {version version' : String} :
    version ++ ".json" = version' ++ ".json" ↔ version = version' := by
  rw [← String.toList_inj, String.toList_append, String.toList_append, List.append_left_inj,
    String.toList_inj]

namespace Represents

theorem specPath_eq {spec : StrategySpec} (hspec : spec.Addressable) :
    registry.specPath spec.strategyId spec.version =
      registry.baseDir ++ [spec.strategyId] ++ [spec.version ++ ".json"] := by
  rw [StrategyRegistry.specPath, StrategyRegistry.strategyDir, joinPath_of_isName _ hspec.version,
    joinPath_of_isName _ hspec.strategyId]

theorem not_file (h : Represents registry pydantic tree catalog) (strategyId : String)
    (content : PyValue) :
    nodeAt tree (registry.baseDir ++ [strategyId]) ≠ some (.file content) := by
  by_cases hholds : catalog.Holds strategyId
  · rw [h.strategy strategyId hholds]
    simp
  · rw [h.no_strategy strategyId hholds]
    simp

theorem isSome_file_iff (h : Represents registry pydantic tree catalog)
    (strategyId version : String) :
    (nodeAt tree (registry.baseDir ++ [strategyId] ++ [version ++ ".json"])).isSome ↔
      catalog strategyId version ≠ none := by
  rw [Option.isSome_iff_exists, Option.ne_none_iff_exists']
  constructor
  · intro hnode
    obtain ⟨node, hnode⟩ := hnode
    obtain ⟨version', spec, hspec, hname, _⟩ := (h.file ..).mp hnode
    rw [append_json_inj.mp hname]
    exact ⟨spec, hspec⟩
  · intro hspec
    obtain ⟨spec, hspec⟩ := hspec
    exact ⟨_, (h.file ..).mpr ⟨version, spec, hspec, rfl, rfl⟩⟩

/-- The tree once the strategy has its directory. -/
def withStrategyDir (registry : StrategyRegistry) (tree : FileSystem) (strategyId : String) :
    FileSystem :=
  if (nodeAt tree (registry.baseDir ++ [strategyId])).isSome then tree
  else put tree (registry.baseDir ++ [strategyId]) .directory

theorem nodeAt_withStrategyDir_of_no_file {strategyId : String}
    (hno : ∀ content, nodeAt tree (registry.baseDir ++ [strategyId]) ≠ some (.file content))
    (place : List String) :
    nodeAt (withStrategyDir registry tree strategyId) place =
      if place = registry.baseDir ++ [strategyId] then some .directory else nodeAt tree place := by
  unfold withStrategyDir
  cases hnode : nodeAt tree (registry.baseDir ++ [strategyId]) with
  | none =>
    rw [Option.isSome_none, if_neg Bool.false_ne_true, nodeAt_put tree (by simp)]
  | some node =>
    cases node with
    | file content => exact absurd hnode (hno content)
    | directory =>
      rw [Option.isSome_some, if_pos rfl]
      by_cases hplace : place = registry.baseDir ++ [strategyId]
      · rw [if_pos hplace, hplace, hnode]
      · rw [if_neg hplace]

theorem nodeAt_withStrategyDir (h : Represents registry pydantic tree catalog)
    (strategyId : String) (place : List String) :
    nodeAt (withStrategyDir registry tree strategyId) place =
      if place = registry.baseDir ++ [strategyId] then some .directory else nodeAt tree place :=
  nodeAt_withStrategyDir_of_no_file (h.not_file strategyId) place

theorem keepsDirectories_withStrategyDir (h : Represents registry pydantic tree catalog)
    (strategyId : String) :
    KeepsDirectories tree (withStrategyDir registry tree strategyId) := by
  intro place hplace
  rw [h.nodeAt_withStrategyDir]
  split_ifs
  · rfl
  · exact hplace

theorem opens_withStrategyDir (h : Represents registry pydantic tree catalog)
    {strategyId : String} (hname : IsName strategyId) :
    Opens (withStrategyDir registry tree strategyId) (registry.baseDir ++ [strategyId]) := by
  refine ((h.keepsDirectories_withStrategyDir strategyId).opens h.opens).child hname ?_
  rw [h.nodeAt_withStrategyDir, if_pos rfl]

theorem withStrategyDir_of_holds (h : Represents registry pydantic tree catalog)
    {strategyId : String} (hholds : catalog.Holds strategyId) :
    withStrategyDir registry tree strategyId = tree := by
  rw [withStrategyDir, h.strategy strategyId hholds]
  rfl

/-! ## The steps of a save -/

theorem mkdir_strategyDir_of_no_file {spec : StrategySpec} (hopens : Opens tree registry.baseDir)
    (hspec : spec.Addressable) (hno : ∀ content,
      nodeAt tree (registry.baseDir ++ [spec.strategyId]) ≠ some (.file content)) :
    mkdir (registry.strategyDir spec.strategyId) tree =
      (.ok (), withStrategyDir registry tree spec.strategyId) := by
  rw [mkdir, StrategyRegistry.strategyDir, joinPath_of_isName _ hspec.strategyId,
    makeDirectory_child hopens hspec.strategyId hno]
  rfl

section Save

variable (h : Represents registry pydantic tree catalog) {spec : StrategySpec}
  (hspec : spec.Addressable)

include h hspec

theorem mkdir_strategyDir :
    mkdir (registry.strategyDir spec.strategyId) tree =
      (.ok (), withStrategyDir registry tree spec.strategyId) :=
  mkdir_strategyDir_of_no_file h.opens hspec (h.not_file spec.strategyId)

/-- Making the directory leaves the file's place as it is. -/
theorem nodeAt_specPath :
    nodeAt (withStrategyDir registry tree spec.strategyId)
        (registry.specPath spec.strategyId spec.version) =
      nodeAt tree (registry.specPath spec.strategyId spec.version) := by
  have hpath : registry.specPath spec.strategyId spec.version = _ := specPath_eq hspec
  rw [h.nodeAt_withStrategyDir, hpath, if_neg (by simp)]

theorem existing_specPath :
    existing (withStrategyDir registry tree spec.strategyId)
        (registry.specPath spec.strategyId spec.version) =
      .ok (decide (catalog spec.strategyId spec.version ≠ none)) := by
  have hpath : registry.specPath spec.strategyId spec.version = _ := specPath_eq hspec
  rw [existing, hpath, pathExists_child (h.opens_withStrategyDir hspec.strategyId) hspec.version,
    ← hpath, h.nodeAt_specPath hspec, hpath]
  show Except.ok _ = Except.ok _
  rw [Except.ok.injEq, Bool.eq_iff_iff, h.isSome_file_iff, decide_eq_true_iff]

theorem writeText_specPath :
    writeText (registry.specPath spec.strategyId spec.version) (spec.modelDump pydantic)
        (withStrategyDir registry tree spec.strategyId) =
      (.ok (), put (withStrategyDir registry tree spec.strategyId)
        (registry.specPath spec.strategyId spec.version) (.file (spec.modelDump pydantic))) := by
  have hpath : registry.specPath spec.strategyId spec.version = _ := specPath_eq hspec
  have hnode : nodeAt (withStrategyDir registry tree spec.strategyId)
      (registry.specPath spec.strategyId spec.version) ≠ some .directory := by
    rw [h.nodeAt_specPath hspec, hpath]
    intro hdirectory
    obtain ⟨_, _, _, _, hnode⟩ := (h.file ..).mp hdirectory
    cases hnode
  rw [hpath] at hnode ⊢
  rw [writeText, writeFile_child (h.opens_withStrategyDir hspec.strategyId) hspec.version hnode]

end Save

/-- A save is refused for a pair that is there, and writes the file otherwise. -/
theorem save_eq (h : Represents registry pydantic tree catalog) {call : SaveCall}
    (hspec : call.spec.Addressable) :
    registry.save pydantic call.spec call.overwrite tree =
      if call.overwrite = true ∨ catalog call.spec.strategyId call.spec.version = none then
        (.ok (registry.specPath call.spec.strategyId call.spec.version),
          put (withStrategyDir registry tree call.spec.strategyId)
            (registry.specPath call.spec.strategyId call.spec.version)
            (.file (call.spec.modelDump pydantic)))
      else
        (.error {
          cls := .app .strategyVersionExistsError
          text := call.spec.strategyId ++ " version " ++ call.spec.version ++
            " already exists at " ++
            pathText (registry.specPath call.spec.strategyId call.spec.version) }, tree) := by
  have hfound : Program.inspect
      (fun tree => existing tree (registry.specPath call.spec.strategyId call.spec.version))
      (withStrategyDir registry tree call.spec.strategyId) =
        (.ok (decide (catalog call.spec.strategyId call.spec.version ≠ none)),
          withStrategyDir registry tree call.spec.strategyId) := by
    rw [Program.inspect, h.existing_specPath hspec]
  rw [StrategyRegistry.save, Program.bind_of_ok (h.mkdir_strategyDir hspec),
    Program.bind_of_ok hfound]
  by_cases hwrites : call.overwrite = true ∨
      catalog call.spec.strategyId call.spec.version = none
  · rw [if_pos hwrites, if_neg (by simpa [or_comm, imp_iff_not_or] using hwrites),
      Program.bind_of_ok (h.writeText_specPath hspec)]
    rfl
  · rw [if_neg hwrites, if_pos (by simpa [not_or, and_comm] using hwrites)]
    rw [not_or] at hwrites
    obtain ⟨stored, hstored⟩ := Option.ne_none_iff_exists'.mp hwrites.2
    rw [h.withStrategyDir_of_holds ⟨_, _, hstored⟩]
    rfl

/-- The tree once a spec is written. -/
def writeSpec (registry : StrategyRegistry) (pydantic : Pydantic) (tree : FileSystem)
    (spec : StrategySpec) : FileSystem :=
  put (withStrategyDir registry tree spec.strategyId)
    (registry.baseDir ++ [spec.strategyId] ++ [spec.version ++ ".json"])
    (.file (spec.modelDump pydantic))

theorem nodeAt_writeSpec (h : Represents registry pydantic tree catalog) (spec : StrategySpec)
    (place : List String) :
    nodeAt (writeSpec registry pydantic tree spec) place =
      if place = registry.baseDir ++ [spec.strategyId] ++ [spec.version ++ ".json"] then
        some (.file (spec.modelDump pydantic))
      else if place = registry.baseDir ++ [spec.strategyId] then some .directory
      else nodeAt tree place := by
  rw [writeSpec, nodeAt_put _ (by simp), h.nodeAt_withStrategyDir]

/-- Below the base directory only the file of the spec is new. -/
theorem nodeAt_file_writeSpec (h : Represents registry pydantic tree catalog) (spec : StrategySpec)
    (strategyId name : String) :
    nodeAt (writeSpec registry pydantic tree spec) (registry.baseDir ++ [strategyId] ++ [name]) =
      if strategyId = spec.strategyId ∧ name = spec.version ++ ".json" then
        some (.file (spec.modelDump pydantic))
      else nodeAt tree (registry.baseDir ++ [strategyId] ++ [name]) := by
  rw [h.nodeAt_writeSpec]
  simp

/-- Below the base directory only the directory of the strategy is new. -/
theorem nodeAt_strategy_writeSpec (h : Represents registry pydantic tree catalog)
    (spec : StrategySpec) (strategyId : String) :
    nodeAt (writeSpec registry pydantic tree spec) (registry.baseDir ++ [strategyId]) =
      if strategyId = spec.strategyId then some .directory
      else nodeAt tree (registry.baseDir ++ [strategyId]) := by
  rw [h.nodeAt_writeSpec]
  simp

theorem keepsDirectories_writeSpec (h : Represents registry pydantic tree catalog)
    (spec : StrategySpec) : KeepsDirectories tree (writeSpec registry pydantic tree spec) := by
  intro place hplace
  rw [h.nodeAt_writeSpec]
  split_ifs with hfile
  · rw [hfile] at hplace
    obtain ⟨_, _, _, _, hnode⟩ := (h.file ..).mp hplace
    cases hnode
  · rfl
  · exact hplace

theorem writes (h : Represents registry pydantic tree catalog) {spec : StrategySpec}
    (hspec : spec.Addressable) (hreads : pydantic.ReadsBack spec) :
    Represents registry pydantic (writeSpec registry pydantic tree spec)
      (catalog.update spec) where
  opens := (h.keepsDirectories_writeSpec spec).opens h.opens
  strategy strategyId hholds := by
    rw [h.nodeAt_strategy_writeSpec]
    split_ifs with hid
    · rfl
    · exact h.strategy strategyId ((Catalog.holds_update_iff.mp hholds).resolve_left hid)
  no_strategy strategyId hholds := by
    rw [Catalog.holds_update_iff, not_or] at hholds
    rw [h.nodeAt_strategy_writeSpec, if_neg hholds.1]
    exact h.no_strategy strategyId hholds.2
  file strategyId name node := by
    rw [h.nodeAt_file_writeSpec]
    by_cases hpair : strategyId = spec.strategyId ∧ name = spec.version ++ ".json"
    · obtain ⟨rfl, rfl⟩ := hpair
      rw [if_pos ⟨rfl, rfl⟩]
      constructor
      · intro hnode
        cases hnode
        exact ⟨spec.version, spec, catalog.update_self spec, rfl, rfl⟩
      · intro hnode
        obtain ⟨version, stored, hstored, hname, rfl⟩ := hnode
        obtain rfl := append_json_inj.mp hname
        rw [catalog.update_self] at hstored
        cases hstored
        rfl
    · rw [if_neg hpair, h.file]
      refine exists_congr fun version => exists_congr fun stored => ?_
      refine and_congr_left fun hnode => ?_
      obtain ⟨rfl, _⟩ := hnode
      rw [append_json_inj] at hpair
      rw [catalog.update_of_ne hpair]
  stored strategyId version stored hstored := by
    rw [Catalog.update] at hstored
    split_ifs at hstored with hpair
    · cases hstored
      exact ⟨hpair.1.symm, hpair.2.symm, hspec, hreads⟩
    · exact h.stored strategyId version stored hstored

/-- Whether it is refused or not, a save does to the tree what it does to the catalog. -/
theorem save (h : Represents registry pydantic tree catalog) {call : SaveCall}
    (hspec : call.spec.Addressable) (hreads : pydantic.ReadsBack call.spec) :
    Represents registry pydantic (registry.save pydantic call.spec call.overwrite tree).2
      (catalog.save call) := by
  rw [h.save_eq hspec, Catalog.save]
  by_cases hwrites : call.overwrite = true ∨
      catalog call.spec.strategyId call.spec.version = none
  · rw [if_pos hwrites, if_pos hwrites, specPath_eq hspec]
    exact h.writes hspec hreads
  · rw [if_neg hwrites, if_neg hwrites]
    exact h

end Represents

end Represents

end Research
end QuantPlatform
