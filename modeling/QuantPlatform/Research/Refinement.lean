import Mathlib.Data.List.Induction
import QuantPlatform.Python.Raise
import QuantPlatform.Research.Catalog

namespace QuantPlatform
namespace Research

open QuantPlatform.Core Effects Files Relational Validation

theorem mem_sortedTexts (texts : List String) (text : String) :
    text ∈ sortedTexts texts ↔ text ∈ texts := List.mem_insertionSort _

theorem sortedTexts_sortedLT {texts : List String} (h : texts.Nodup) :
    (sortedTexts texts).SortedLT := by
  have hsorted : (sortedTexts texts).Pairwise (· ≤ ·) := List.pairwise_insertionSort _ _
  have hnodup : (sortedTexts texts).Nodup := (List.perm_insertionSort _ texts).nodup_iff.mpr h
  rw [List.sortedLT_iff_pairwise]
  exact (hsorted.and hnodup).imp fun hab => lt_of_le_of_ne hab.1 hab.2

theorem stem_append_json {version : String} (h : version ≠ "") :
    stem (version ++ ".json") = version := by
  have hreverse : (version ++ ".json").toList.reverse =
      ['n', 'o', 's', 'j'] ++ '.' :: version.toList.reverse := by
    rw [String.toList_append, List.reverse_append]
    rfl
  have hbefore : version.toList.reverse ≠ [] := by
    rw [Ne, List.reverse_eq_nil_iff, String.toList_eq_nil_iff]
    exact h
  have htake : (version ++ ".json").toList.reverse.takeWhile (· ≠ '.') =
      ['n', 'o', 's', 'j'] := by
    rw [hreverse]
    rfl
  have hdrop : (version ++ ".json").toList.reverse.dropWhile (· ≠ '.') =
      '.' :: version.toList.reverse := by
    rw [hreverse]
    rfl
  rw [stem, htake, hdrop]
  dsimp only
  rw [if_neg (by simp [hbefore]), List.reverse_reverse, String.ofList_toList]

theorem isJsonName_append_json (version : String) : isJsonName (version ++ ".json") = true := by
  rw [isJsonName, List.isSuffixOf_iff_suffix, String.toList_append]
  exact List.suffix_append _ _

theorem StrategySpec.version_ne_empty (spec : StrategySpec) : spec.version ≠ "" := by
  intro hempty
  have hblank := spec.valid.1 spec.version (by simp)
  rw [hempty] at hblank
  cases hblank

/-- The time two datetimes of one kind are compared by. -/
def comparedAt (written : WrittenDatetime) : Int := written.wallTime - written.utcoffset.getD 0

theorem laterThan_eq {a b : WrittenDatetime}
    (h : a.utcoffset.isSome ↔ b.utcoffset.isSome) :
    laterThan a b = .ok (decide (comparedAt b < comparedAt a)) := by
  unfold laterThan comparedAt
  cases ha : a.utcoffset with
  | none => cases hb : b.utcoffset with
    | none => simp
    | some y => simp [ha, hb] at h
  | some x => cases hb : b.utcoffset with
    | none => simp [ha, hb] at h
    | some y => rfl

/-- The spec that is kept of the first two. -/
theorem latestOf_cons_cons {first next : StrategySpec}
    (h : next.createdAt.utcoffset.isSome ↔ first.createdAt.utcoffset.isSome)
    (rest : List StrategySpec) :
    latestOf (first :: next :: rest) =
      latestOf ((if comparedAt first.createdAt < comparedAt next.createdAt then next
        else first) :: rest) := by
  rw [latestOf, latestOf, List.foldlM_cons, laterThan_eq h]
  by_cases hlater : comparedAt first.createdAt < comparedAt next.createdAt
  · rw [if_pos hlater, decide_eq_true hlater]
    rfl
  · rw [if_neg hlater, decide_eq_false hlater]
    rfl

/-- The first spec with the latest creation time. -/
theorem latestOf_eq_ok {specs : List StrategySpec} (hne : specs ≠ [])
    (hcomparable : ∀ a ∈ specs, ∀ b ∈ specs,
      (a.createdAt.utcoffset.isSome ↔ b.createdAt.utcoffset.isSome)) :
    ∃ latest ∈ specs, latestOf specs = .ok latest ∧
      ∀ spec ∈ specs, laterThan spec.createdAt latest.createdAt = .ok false := by
  obtain ⟨first, rest, rfl⟩ := List.exists_cons_of_ne_nil hne
  clear hne
  -- what has been passed over is not later than the latest so far
  suffices hrun : ∃ latest ∈ first :: rest, latestOf (first :: rest) = .ok latest ∧
      ∀ spec ∈ first :: rest, comparedAt spec.createdAt ≤ comparedAt latest.createdAt by
    obtain ⟨latest, hmem, hlatest, hmax⟩ := hrun
    refine ⟨latest, hmem, hlatest, fun spec hspec => ?_⟩
    rw [laterThan_eq (hcomparable spec hspec latest hmem),
      decide_eq_false (Int.not_lt.mpr (hmax spec hspec))]
  induction rest generalizing first with
  | nil => exact ⟨first, List.mem_cons_self, rfl, by simp⟩
  | cons next rest ih =>
    rw [latestOf_cons_cons (hcomparable next (by simp) first (by simp))]
    by_cases hlater : comparedAt first.createdAt < comparedAt next.createdAt
    · rw [if_pos hlater]
      obtain ⟨latest, hmem, hlatest, hmax⟩ := ih next fun a ha b hb =>
        hcomparable a (List.mem_cons_of_mem _ ha) b (List.mem_cons_of_mem _ hb)
      refine ⟨latest, List.mem_cons_of_mem _ hmem, hlatest, ?_⟩
      have hfirst := hmax next List.mem_cons_self
      simp only [List.forall_mem_cons] at hmax ⊢
      exact ⟨by omega, hmax⟩
    · rw [if_neg hlater]
      have hsub : ∀ a ∈ first :: rest, a ∈ first :: next :: rest := by
        intro a ha
        simp only [List.mem_cons] at ha ⊢
        tauto
      obtain ⟨latest, hmem, hlatest, hmax⟩ := ih first fun a ha b hb =>
        hcomparable a (hsub a ha) b (hsub b hb)
      refine ⟨latest, hsub latest hmem, hlatest, ?_⟩
      simp only [List.forall_mem_cons] at hmax ⊢
      exact ⟨hmax.1, by omega, hmax.2⟩

/-! ## Reading -/

section Represents

variable {registry : StrategyRegistry} {pydantic : Pydantic} {tree : FileSystem}
  {catalog : Catalog}

/-- The file of a spec is loaded as that spec. -/
theorem load_of_file {spec : StrategySpec} (haddress : spec.Addressable)
    (hopens : Opens tree (registry.baseDir ++ [spec.strategyId]))
    (hfile : nodeAt tree (registry.baseDir ++ [spec.strategyId] ++ [spec.version ++ ".json"]) =
      some (.file (spec.modelDump pydantic)))
    (hencodable : spec.Encodable) (hreads : pydantic.ReadsBack spec) :
    registry.load pydantic tree spec.strategyId spec.version = .ok spec := by
  have hpath : registry.specPath spec.strategyId spec.version = _ :=
    Represents.specPath_eq haddress
  have hexisting : existing tree (registry.specPath spec.strategyId spec.version) = .ok true := by
    rw [existing, hpath, pathExists_child hopens haddress.version, hfile]
    rfl
  have hread : readFile tree (registry.specPath spec.strategyId spec.version) =
      .ok (spec.modelDump pydantic) := by
    rw [hpath]
    exact readFile_child hopens haddress.version hfile
  have hback := modelValidate_modelDump hencodable hreads
  refine Raise.bind_eq_ok_iff.mpr ⟨true, hexisting, ?_⟩
  refine Raise.bind_eq_ok_iff.mpr ⟨spec.modelDump pydantic, by rw [hread]; rfl, ?_⟩
  rw [hback]
  rfl

namespace Represents

/-- A saved strategy has a name of its own, and its directory can be entered. -/
theorem opens_strategy (h : Represents registry pydantic tree catalog) {strategyId : String}
    (hholds : catalog.Holds strategyId) :
    IsName strategyId ∧ Opens tree (registry.baseDir ++ [strategyId]) := by
  obtain ⟨version, spec, hspec⟩ := id hholds
  obtain ⟨rfl, _, haddress, _⟩ := h.stored _ _ _ hspec
  exact ⟨haddress.strategyId,
    h.opens.child haddress.strategyId (h.strategy _ hholds)⟩

theorem existing_strategy (h : Represents registry pydantic tree catalog) {strategyId : String}
    (hname : IsName strategyId) :
    existing tree (registry.strategyDir strategyId) =
      .ok (nodeAt tree (registry.baseDir ++ [strategyId])).isSome := by
  rw [existing, StrategyRegistry.strategyDir, joinPath_of_isName _ hname,
    pathExists_child h.opens hname]
  rfl

/-- A saved pair is loaded as the spec that was saved last. -/
theorem load_eq_ok (h : Represents registry pydantic tree catalog) {strategyId version : String}
    {spec : StrategySpec} (hspec : catalog strategyId version = some spec)
    (hencodable : spec.Encodable) :
    registry.load pydantic tree strategyId version = .ok spec := by
  obtain ⟨rfl, rfl, haddress, hreads⟩ := h.stored _ _ _ hspec
  exact load_of_file haddress (h.opens_strategy ⟨_, _, hspec⟩).2
    ((h.file ..).mpr ⟨_, _, hspec, rfl, rfl⟩) hencodable hreads

/-- A pair of names that was not saved is not found. -/
theorem load_not_found (h : Represents registry pydantic tree catalog)
    {strategyId version : String} (hstrategyId : IsName strategyId)
    (hversion : IsName (version ++ ".json")) (hnone : catalog strategyId version = none) :
    ∃ raised, registry.load pydantic tree strategyId version = .error raised ∧
      raised.cls = .app .strategyNotFoundError := by
  have hpath : registry.specPath strategyId version =
      registry.baseDir ++ [strategyId] ++ [version ++ ".json"] := by
    rw [StrategyRegistry.specPath, StrategyRegistry.strategyDir, joinPath_of_isName _ hversion,
      joinPath_of_isName _ hstrategyId]
  have hfile : nodeAt tree (registry.baseDir ++ [strategyId] ++ [version ++ ".json"]) = none := by
    rw [← Option.not_isSome_iff_eq_none, h.isSome_file_iff]
    simp [hnone]
  have hexisting : existing tree (registry.specPath strategyId version) = .ok false := by
    rw [existing, hpath]
    by_cases hholds : catalog.Holds strategyId
    · rw [pathExists_child (h.opens_strategy hholds).2 hversion, hfile]
      rfl
    · rw [pathExists_below_missing h.opens hstrategyId (h.no_strategy _ hholds) hversion]
      rfl
  simp only [StrategyRegistry.load, hexisting]
  exact ⟨_, rfl, rfl⟩

/-- The strategies that were saved, in ascending order. -/
theorem listStrategyIds_eq_ok (h : Represents registry pydantic tree catalog) :
    ∃ ids, registry.listStrategyIds tree = .ok ids ∧ ids.SortedLT ∧
      ∀ strategyId, strategyId ∈ ids ↔ catalog.Holds strategyId := by
  have hexisting : existing tree registry.baseDir = .ok true := by
    rw [existing, pathExists, locate, h.opens.no_nul, h.opens.walks]
    simp only [Bool.false_eq_true, if_false, h.opens.directory]
    rfl
  refine ⟨_, ?_, sortedTexts_sortedLT ((childNames_nodup tree registry.baseDir).filter
    fun name => isDirectory tree (registry.baseDir ++ [name])), ?_⟩
  · simp only [StrategyRegistry.listStrategyIds, hexisting,
      (isDirectory_iff _ _).mpr h.opens.directory]
    rfl
  · intro strategyId
    rw [mem_sortedTexts, List.mem_filter, mem_childNames_iff, isDirectory_iff]
    by_cases hholds : catalog.Holds strategyId
    · simp [h.strategy strategyId hholds, hholds]
    · simp [h.no_strategy strategyId hholds, hholds]

/-- A version that is there is the name of its file without the suffix. -/
theorem stem_version (h : Represents registry pydantic tree catalog) {strategyId version : String}
    {spec : StrategySpec} (hspec : catalog strategyId version = some spec) :
    stem (version ++ ".json") = version := by
  refine stem_append_json ?_
  rw [← (h.stored _ _ _ hspec).2.1]
  exact spec.version_ne_empty

/-- The directory of a strategy has the files of its versions and no others. -/
theorem mem_childNames_strategy_iff (h : Represents registry pydantic tree catalog)
    {strategyId name : String} :
    name ∈ childNames tree (registry.baseDir ++ [strategyId]) ↔
      ∃ version spec, catalog strategyId version = some spec ∧ name = version ++ ".json" := by
  rw [mem_childNames_iff, Option.isSome_iff_exists]
  constructor
  · intro hnode
    obtain ⟨node, hnode⟩ := hnode
    obtain ⟨version, spec, hspec, hname, _⟩ := (h.file ..).mp hnode
    exact ⟨version, spec, hspec, hname⟩
  · intro hname
    obtain ⟨version, spec, hspec, hname⟩ := hname
    exact ⟨_, (h.file ..).mpr ⟨version, spec, hspec, hname, rfl⟩⟩

/-- The versions of a strategy that were saved, in ascending order. -/
theorem listVersions_eq_ok (h : Represents registry pydantic tree catalog) {strategyId : String}
    (hholds : catalog.Holds strategyId) :
    ∃ versions, registry.listVersions tree strategyId = .ok versions ∧ versions.SortedLT ∧
      ∀ version, version ∈ versions ↔ (catalog strategyId version).isSome := by
  obtain ⟨hname, hopens⟩ := h.opens_strategy hholds
  have hdir : registry.strategyDir strategyId = registry.baseDir ++ [strategyId] :=
    joinPath_of_isName _ hname
  have hexisting : existing tree (registry.strategyDir strategyId) = .ok true := by
    rw [h.existing_strategy hname, hopens.directory]
    rfl
  have hlocate : locate tree (registry.baseDir ++ [strategyId]) =
      .ok (registry.baseDir ++ [strategyId]) := h.opens.locate_child hname
  have hnodup : (((childNames tree (registry.baseDir ++ [strategyId])).filter isJsonName).map
      stem).Nodup := by
    refine List.Nodup.map_on ?_ ((childNames_nodup tree _).filter _)
    intro name hmem name' hmem' hstem
    obtain ⟨version, _, hspec, rfl⟩ :=
      h.mem_childNames_strategy_iff.mp (List.mem_of_mem_filter hmem)
    obtain ⟨version', _, hspec', rfl⟩ :=
      h.mem_childNames_strategy_iff.mp (List.mem_of_mem_filter hmem')
    rw [← h.stem_version hspec, hstem, h.stem_version hspec']
  refine ⟨_, ?_, sortedTexts_sortedLT hnodup, ?_⟩
  · rw [hdir] at hexisting
    simp only [StrategyRegistry.listVersions, hdir, hexisting, hlocate,
      (isDirectory_iff _ _).mpr hopens.directory, if_true]
    rfl
  · intro version
    rw [mem_sortedTexts, List.mem_map]
    constructor
    · intro hmem
      obtain ⟨name, hmem, rfl⟩ := hmem
      obtain ⟨version, spec, hspec, rfl⟩ :=
        h.mem_childNames_strategy_iff.mp (List.mem_of_mem_filter hmem)
      rw [h.stem_version hspec, hspec]
      rfl
    · intro hsome
      obtain ⟨spec, hspec⟩ := Option.isSome_iff_exists.mp hsome
      have hmem := h.mem_childNames_strategy_iff.mpr ⟨version, spec, hspec, rfl⟩
      exact ⟨version ++ ".json",
        List.mem_filter.mpr ⟨hmem, isJsonName_append_json version⟩, h.stem_version hspec⟩

/-- The latest version of a strategy is found among those that were saved. -/
theorem loadLatest_eq_ok (h : Represents registry pydantic tree catalog)
    (hreadable : catalog.Readable) {strategyId : String} (hholds : catalog.Holds strategyId) :
    ∃ version latest, catalog strategyId version = some latest ∧
      registry.loadLatest pydantic tree strategyId = .ok latest ∧
      ∀ version' spec, catalog strategyId version' = some spec →
        laterThan spec.createdAt latest.createdAt = .ok false := by
  obtain ⟨versions, hversions, _, hmem⟩ := h.listVersions_eq_ok hholds
  have hload : ∀ version ∈ versions, ∃ spec, catalog strategyId version = some spec ∧
      registry.load pydantic tree strategyId version = .ok spec := by
    intro version hversion
    obtain ⟨spec, hspec⟩ := Option.isSome_iff_exists.mp ((hmem version).mp hversion)
    exact ⟨spec, hspec, h.load_eq_ok hspec (hreadable.encodable _ _ _ hspec)⟩
  obtain ⟨specs, hspecs⟩ := Raise.exists_mapM_eq_ok fun version hversion =>
    (hload version hversion).imp fun _ hspec => hspec.2
  have hstored : ∀ spec ∈ specs, ∃ version, catalog strategyId version = some spec := by
    refine (Raise.forall_mem_iff_of_mapM hspecs _).mpr fun version hversion => ?_
    obtain ⟨spec, hspec, hok⟩ := hload version hversion
    exact ⟨spec, hok, version, hspec⟩
  have hlisted : ∀ version spec, catalog strategyId version = some spec → spec ∈ specs := by
    intro version spec hspec
    have hversion := (hmem version).mpr (Option.isSome_iff_exists.mpr ⟨spec, hspec⟩)
    obtain ⟨_, hspec', rfl⟩ := (Raise.exists_mem_iff_of_mapM hspecs (· = spec)).mpr
      ⟨version, hversion, spec, h.load_eq_ok hspec (hreadable.encodable _ _ _ hspec), rfl⟩
    exact hspec'
  obtain ⟨version₀, spec₀, hspec₀⟩ := hholds
  have hne : specs ≠ [] := List.ne_nil_of_mem (hlisted version₀ spec₀ hspec₀)
  obtain ⟨latest, hlatest, hok, hmax⟩ := latestOf_eq_ok hne fun a ha b hb => by
    obtain ⟨version, ha⟩ := hstored a ha
    obtain ⟨version', hb⟩ := hstored b hb
    exact hreadable.comparable _ _ _ _ _ ha hb
  obtain ⟨version, hversion⟩ := hstored latest hlatest
  refine ⟨version, latest, hversion, ?_, fun version' spec hspec =>
    hmax spec (hlisted version' spec hspec)⟩
  have hsome : versions ≠ [] := by
    intro hempty
    rw [hempty] at hspecs
    cases hspecs
    exact hne rfl
  rw [StrategyRegistry.loadLatest, hversions]
  show (if versions.isEmpty then _ else _) = _
  rw [if_neg (by simpa using hsome)]
  show (versions.mapM _ >>= _) = _
  rw [hspecs]
  exact hok

end Represents

/-! ## Runs of saves -/

/-- What is read from the tree is what the catalog says. -/
structure ReadsAs (registry : StrategyRegistry) (pydantic : Pydantic) (tree : FileSystem)
    (catalog : Catalog) : Prop where
  load : ∀ strategyId version spec, catalog strategyId version = some spec →
    registry.load pydantic tree strategyId version = .ok spec
  load_not_found : ∀ strategyId version, IsName strategyId → IsName (version ++ ".json") →
    catalog strategyId version = none →
      ∃ raised, registry.load pydantic tree strategyId version = .error raised ∧
        raised.cls = .app .strategyNotFoundError
  listStrategyIds : ∃ ids, registry.listStrategyIds tree = .ok ids ∧ ids.SortedLT ∧
    ∀ strategyId, strategyId ∈ ids ↔ catalog.Holds strategyId
  listVersions : ∀ strategyId, catalog.Holds strategyId →
    ∃ versions, registry.listVersions tree strategyId = .ok versions ∧ versions.SortedLT ∧
      ∀ version, version ∈ versions ↔ (catalog strategyId version).isSome
  loadLatest : ∀ strategyId, catalog.Holds strategyId →
    ∃ version latest, catalog strategyId version = some latest ∧
      registry.loadLatest pydantic tree strategyId = .ok latest ∧
      ∀ version' spec, catalog strategyId version' = some spec →
        laterThan spec.createdAt latest.createdAt = .ok false

/-- The tree after saves one after the other, some of which may be refused. -/
def saveAll (registry : StrategyRegistry) (pydantic : Pydantic) (tree : FileSystem)
    (calls : List SaveCall) : FileSystem :=
  calls.foldl (fun tree call => (registry.save pydantic call.spec call.overwrite tree).2) tree

theorem saveAll_append (registry : StrategyRegistry) (pydantic : Pydantic) (tree : FileSystem)
    (before after : List SaveCall) :
    saveAll registry pydantic tree (before ++ after) =
      saveAll registry pydantic (saveAll registry pydantic tree before) after :=
  List.foldl_append

/-- Along the saves the files are a finite map, and exactly the pairs that are there
are refused. -/
def RefinesFiniteMap (registry : StrategyRegistry) (pydantic : Pydantic) (tree : FileSystem)
    (calls : List SaveCall) : Prop :=
  (∀ before call after, calls = before ++ call :: after →
    ((∃ raised, (registry.save pydantic call.spec call.overwrite
        (saveAll registry pydantic tree before)).1 = .error raised) ↔
      call.overwrite = false ∧ ∃ earlier ∈ before,
        earlier.spec.strategyId = call.spec.strategyId ∧
          earlier.spec.version = call.spec.version)) ∧
  ∀ before after, calls = before ++ after →
    ReadsAs registry pydantic (saveAll registry pydantic tree before) (Catalog.after before)

theorem Catalog.save_eq_none_iff (call : SaveCall) (strategyId version : String) :
    catalog.save call strategyId version = none ↔
      catalog strategyId version = none ∧
        ¬ (call.spec.strategyId = strategyId ∧ call.spec.version = version) := by
  unfold Catalog.save Catalog.update
  by_cases hpair : strategyId = call.spec.strategyId ∧ version = call.spec.version
  · obtain ⟨rfl, rfl⟩ := hpair
    split_ifs with hwrites
    · simp
    · rw [not_or] at hwrites
      simp [hwrites.2]
  · have hpair' : ¬ (call.spec.strategyId = strategyId ∧ call.spec.version = version) :=
      fun h => hpair ⟨h.1.symm, h.2.symm⟩
    split_ifs with hwrites
    · simp [hpair, hpair']
    · simp [hpair']

/-- A pair is there once it was saved, whatever became of the call. -/
theorem Catalog.after_ne_none_iff (calls : List SaveCall) (strategyId version : String) :
    Catalog.after calls strategyId version ≠ none ↔
      ∃ earlier ∈ calls, earlier.spec.strategyId = strategyId ∧
        earlier.spec.version = version := by
  induction calls using List.reverseRecOn with
  | nil => simp [Catalog.after, Catalog.empty]
  | append_singleton calls call ih =>
    rw [Catalog.after, List.foldl_append, List.foldl_cons, List.foldl_nil, Ne,
      Catalog.save_eq_none_iff, not_and_or, not_not, ← Catalog.after, ← Ne, ih]
    simp [or_and_right, exists_or]

theorem Represents.saveAll {tree : FileSystem} (hempty : EmptyDirectory tree registry.baseDir)
    {calls : List SaveCall} (haddress : ∀ call ∈ calls, call.spec.Addressable)
    (hreads : ∀ call ∈ calls, pydantic.ReadsBack call.spec) :
    Represents registry pydantic (Research.saveAll registry pydantic tree calls)
      (Catalog.after calls) := by
  induction calls using List.reverseRecOn with
  | nil => exact represents_empty hempty
  | append_singleton calls call ih =>
    rw [saveAll_append, Catalog.after, List.foldl_append]
    exact (ih (fun c hc => haddress c (List.mem_append_left _ hc))
      fun c hc => hreads c (List.mem_append_left _ hc)).save
        (haddress call (by simp)) (hreads call (by simp))

theorem Represents.readsAs (h : Represents registry pydantic tree catalog)
    (hreadable : catalog.Readable) : ReadsAs registry pydantic tree catalog where
  load _ _ _ hspec := h.load_eq_ok hspec (hreadable.encodable _ _ _ hspec)
  load_not_found _ _ hstrategyId hversion hnone := h.load_not_found hstrategyId hversion hnone
  listStrategyIds := h.listStrategyIds_eq_ok
  listVersions _ hholds := h.listVersions_eq_ok hholds
  loadLatest _ hholds := h.loadLatest_eq_ok hreadable hholds

/-- Saved under names of their own, and all of them readable, specs are kept like in a
finite map. -/
theorem refinesFiniteMap_of_readable {tree : FileSystem} {calls : List SaveCall}
    (hempty : EmptyDirectory tree registry.baseDir)
    (haddress : ∀ call ∈ calls, call.spec.Addressable)
    (hreads : ∀ call ∈ calls, pydantic.ReadsBack call.spec)
    (hreadable : ∀ before after, calls = before ++ after → (Catalog.after before).Readable) :
    RefinesFiniteMap registry pydantic tree calls := by
  constructor
  · intro before call after hcalls
    subst hcalls
    have hbefore : Represents registry pydantic (saveAll registry pydantic tree before) _ :=
      Represents.saveAll hempty (fun c hc => haddress c (List.mem_append_left _ hc))
        fun c hc => hreads c (List.mem_append_left _ hc)
    rw [hbefore.save_eq (haddress call (by simp)), ← Catalog.after_ne_none_iff]
    split_ifs with hwrites
    · simp only [exists_false, false_iff, not_and, not_not]
      intro hoverwrite
      exact hwrites.resolve_left (by simp [hoverwrite])
    · rw [not_or] at hwrites
      exact ⟨fun _ => ⟨Bool.eq_false_of_not_eq_true hwrites.1, hwrites.2⟩, fun _ => ⟨_, rfl⟩⟩
  · intro before after hcalls
    have hmem : ∀ call ∈ before, call ∈ calls := by
      intro call hcall
      rw [hcalls]
      exact List.mem_append_left _ hcall
    exact (Represents.saveAll hempty (fun c hc => haddress c (hmem c hc))
      fun c hc => hreads c (hmem c hc)).readsAs (hreadable before after hcalls)

end Represents

theorem Catalog.save_eq_some {catalog : Catalog} {call : SaveCall} {strategyId version : String}
    {spec : StrategySpec} (h : catalog.save call strategyId version = some spec) :
    call.spec = spec ∨ catalog strategyId version = some spec := by
  unfold Catalog.save at h
  split_ifs at h
  · change (if strategyId = call.spec.strategyId ∧ version = call.spec.version then
      some call.spec else catalog strategyId version) = some spec at h
    split_ifs at h
    · exact .inl (Option.some.inj h)
    · exact .inr h
  · exact .inr h

/-- A spec that is there was saved. -/
theorem Catalog.exists_of_after_eq_some {calls : List SaveCall} {strategyId version : String}
    {spec : StrategySpec} (h : Catalog.after calls strategyId version = some spec) :
    ∃ call ∈ calls, call.spec = spec := by
  induction calls using List.reverseRecOn with
  | nil => cases h
  | append_singleton calls call ih =>
    rw [Catalog.after, List.foldl_append, List.foldl_cons, List.foldl_nil, ← Catalog.after] at h
    obtain hspec | hbefore := Catalog.save_eq_some h
    · exact ⟨call, by simp, hspec⟩
    · obtain ⟨earlier, hearlier, hspec⟩ := ih hbefore
      exact ⟨earlier, List.mem_append_left _ hearlier, hspec⟩

/-- Nine in the morning of two days, where the clocks are nine hours ahead. -/
def firstMorning : WrittenDatetime := ⟨1719824400000000, some 32400000000⟩

def secondMorning : WrittenDatetime := ⟨1719910800000000, some 32400000000⟩

/-- The forms of two mornings, of two dates and of a fee. -/
def exampleForms : Pydantic where
  datetimeText written :=
    if written = firstMorning then "2024-07-01T09:00:00+09:00" else "2024-07-02T09:00:00+09:00"
  parseDatetime value := (readText value).bind fun text =>
    if text = "2024-07-01T09:00:00+09:00" then some firstMorning
    else if text = "2024-07-02T09:00:00+09:00" then some secondMorning
    else none
  dateText day := if day = 19000 then "2022-01-08" else "2022-01-09"
  parseDate value := (readText value).bind fun text =>
    if text = "2022-01-08" then some 19000
    else if text = "2022-01-09" then some 19001
    else none
  floatText _ := "0.25"
  now := ⟨0, some 0⟩
  errorText _ := "validation error"

def examplePine : PineValidationAssumptions where
  testPeriodStart := 19000
  testPeriodEnd := 19001
  symbols := ["005930"]
  timeframe := "1d"
  feesPct := .finite (1 / 4)
  slippagePct := .finite (1 / 4)
  valid := by decide +kernel

def exampleFields (version : String) (createdAt : WrittenDatetime) : SpecFields where
  strategyId := "momentum"
  name := "Momentum"
  version := version
  source := .tradingviewPine
  hypothesis := "winners go on winning"
  universeList := ["KOSPI"]
  timeframe := "1d"
  entryRules := ["above the high of a year"]
  exitRules := ["below the low of a month"]
  riskAssumptions := ["no leverage"]
  createdAt := createdAt
  status := .paper
  pineValidation := some examplePine

def firstVersion : StrategySpec :=
  { exampleFields "v1" firstMorning with valid := by decide +kernel }

/-- The same version, written again on the next morning. -/
def rewritten : StrategySpec :=
  { exampleFields "v1" secondMorning with valid := by decide +kernel }

def secondVersion : StrategySpec :=
  { exampleFields "v2" secondMorning with valid := by decide +kernel }

def slashVersion : StrategySpec :=
  { exampleFields "2024/07" firstMorning with valid := by decide +kernel }

/-- A disk with one directory, for the registry. -/
def exampleDisk : FileSystem := put Table.empty ["strategies"] .directory

theorem emptyDirectory_exampleDisk : EmptyDirectory exampleDisk ["strategies"] where
  opens := by
    refine ⟨by decide +kernel, by rfl, ?_⟩
    rw [exampleDisk, nodeAt_put _ (by simp), if_pos rfl]
  below path hpath := by
    rw [exampleDisk, nodeAt_put _ (by simp), if_neg (by simp [hpath])]
    rfl

theorem readsBack_exampleForms {version : String} {createdAt : WrittenDatetime}
    (hcreated : createdAt = firstMorning ∨ createdAt = secondMorning)
    (hvalid : (exampleFields version createdAt).Valid) :
    exampleForms.ReadsBack { exampleFields version createdAt with valid := hvalid } where
  createdAt _ := by
    obtain rfl | rfl := hcreated
    · rfl
    · rfl
  dates pine hpine date hdate := by
    cases hpine
    simp only [examplePine, List.mem_cons, List.not_mem_nil, or_false] at hdate
    obtain rfl | rfl := hdate
    · rfl
    · rfl
  numbers pine hpine value hvalue := by
    cases hpine
    simp only [examplePine, List.mem_cons, List.not_mem_nil, or_false, or_self,
      PyFloat.finite.injEq] at hvalue
    subst hvalue
    decide +kernel

theorem isName_momentum : IsName "momentum" :=
  ⟨by decide, by decide +kernel, by decide, by decide, by decide +kernel, by decide⟩

theorem isName_v1Json : IsName ("v1" ++ ".json") :=
  ⟨by decide, by decide +kernel, by decide, by decide, by decide +kernel, by decide⟩

theorem isName_v2Json : IsName ("v2" ++ ".json") :=
  ⟨by decide, by decide +kernel, by decide, by decide, by decide +kernel, by decide⟩

theorem addressable_example {version : String} (hversion : IsName (version ++ ".json"))
    {createdAt : WrittenDatetime} (hvalid : (exampleFields version createdAt).Valid) :
    StrategySpec.Addressable { exampleFields version createdAt with valid := hvalid } where
  strategyId := isName_momentum
  version := hversion

theorem encodable_example {version : String} {createdAt : WrittenDatetime}
    (hcreated : createdAt = firstMorning ∨ createdAt = secondMorning)
    (hvalid : (exampleFields version createdAt).Valid) :
    StrategySpec.Encodable { exampleFields version createdAt with valid := hvalid } where
  offset offset hoffset := by
    obtain rfl | rfl := hcreated
    · cases hoffset
      decide
    · cases hoffset
      decide
  fees pine hpine := by
    cases hpine
    exact ⟨_, rfl⟩
  slippage pine hpine := by
    cases hpine
    exact ⟨_, rfl⟩

/-- Two versions, and the first once more: refused at first, and then over it. -/
def savedVersions : List SaveCall :=
  [⟨firstVersion, false⟩, ⟨secondVersion, false⟩, ⟨rewritten, false⟩, ⟨rewritten, true⟩]

theorem forall_savedVersions {p : StrategySpec → Prop} (hfirst : p firstVersion)
    (hsecond : p secondVersion) (hrewritten : p rewritten) : ∀ call ∈ savedVersions, p call.spec := by
  simp [savedVersions, hfirst, hsecond, hrewritten]

theorem two_versions_refineFiniteMap :
    RefinesFiniteMap { baseDir := ["strategies"] } exampleForms exampleDisk savedVersions := by
  refine refinesFiniteMap_of_readable emptyDirectory_exampleDisk ?_ ?_ ?_
  · exact forall_savedVersions (addressable_example isName_v1Json _)
      (addressable_example isName_v2Json _) (addressable_example isName_v1Json _)
  · exact forall_savedVersions (readsBack_exampleForms (.inl rfl) _)
      (readsBack_exampleForms (.inr rfl) _) (readsBack_exampleForms (.inr rfl) _)
  · intro before after hcalls
    -- Whatever a read finds is one of the three.
    have hspec : ∀ {p : StrategySpec → Prop}, p firstVersion → p secondVersion → p rewritten →
        ∀ strategyId version spec, Catalog.after before strategyId version = some spec →
          p spec := by
      intro p hfirst hsecond hrewritten strategyId version spec h
      obtain ⟨call, hcall, rfl⟩ := Catalog.exists_of_after_eq_some h
      have hmem : call ∈ savedVersions := hcalls ▸ List.mem_append_left _ hcall
      exact forall_savedVersions hfirst hsecond hrewritten call hmem
    have haware := hspec (p := fun spec => spec.createdAt.utcoffset.isSome) rfl rfl rfl
    exact
      { encodable := hspec (encodable_example (.inl rfl) _) (encodable_example (.inr rfl) _)
          (encodable_example (.inr rfl) _)
        comparable := fun strategyId version version' spec spec' h h' =>
          iff_of_true (haware _ _ _ h) (haware _ _ _ h') }

/-- The slash in the version asks for a directory that is not there. -/
theorem slashVersion_refused :
    ¬ ∀ (registry : StrategyRegistry) (pydantic : Pydantic) (tree : FileSystem)
      (calls : List SaveCall), EmptyDirectory tree registry.baseDir →
        (∀ call ∈ calls, pydantic.ReadsBack call.spec) →
          RefinesFiniteMap registry pydantic tree calls := by
  intro h
  have hrefines := h { baseDir := ["strategies"] } exampleForms exampleDisk
    [⟨slashVersion, false⟩] emptyDirectory_exampleDisk
    (by simp [slashVersion, readsBack_exampleForms])
  obtain ⟨_, hearlier⟩ := (hrefines.1 [] ⟨slashVersion, false⟩ [] rfl).mp ⟨_, rfl⟩
  simp at hearlier

end Research
end QuantPlatform
