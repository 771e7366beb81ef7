/-
Savers that share the directory of a registry.

A save without `overwrite` takes four steps: it makes the directory of the strategy, looks
for the file, opens the file and writes it.  Between two of its steps others may take
theirs.  Alone, the steps are `StrategyRegistry.save`: `save_eq_turns`.  Together they keep the
registry append-only as long as nobody looks for a file that another has found missing and
not opened yet; two that do both return, and the second file takes the place of the first.
-/
import QuantPlatform.Effects.Interleaving
import QuantPlatform.Research.Refinement

namespace QuantPlatform
namespace Research

open QuantPlatform.Core Effects Files Interleaving

/-- How far a call of `save` has come. -/
inductive SavePhase
  | called
  | directoryMade
  | fileMissing
  | fileOpened
  | finished (result : Except Raised (List String))

/-- What `save` raises for a file that is there. -/
def versionExists (registry : StrategyRegistry) (spec : StrategySpec) : Raised where
  cls := .app .strategyVersionExistsError
  text := spec.strategyId ++ " version " ++ spec.version ++ " already exists at " ++
    pathText (registry.specPath spec.strategyId spec.version)

/-- The phase after a step: the next one, or the end when the step raised. -/
def phaseAfter (next : SavePhase) : Except Raised Unit × FileSystem → SavePhase × FileSystem
  | (.ok (), tree) => (next, tree)
  | (.error e, tree) => (.finished (.error e), tree)

section Steps

-- A file that is opened for writing is empty; `emptyText` is what its text is read as.
variable (registry : StrategyRegistry) (pydantic : Pydantic) (emptyText : PyValue)

/-- One step of `save(spec)`. -/
def saveStep (spec : StrategySpec) (phase : SavePhase) (tree : FileSystem) :
    SavePhase × FileSystem :=
  let path := registry.specPath spec.strategyId spec.version
  match phase with
  | .called => phaseAfter .directoryMade (mkdir (registry.strategyDir spec.strategyId) tree)
  | .directoryMade =>
      match existing tree path with
      | .error e => (.finished (.error e), tree)
      | .ok true => (.finished (.error (versionExists registry spec)), tree)
      | .ok false => (.fileMissing, tree)
  | .fileMissing => phaseAfter .fileOpened (writeText path emptyText tree)
  | .fileOpened => phaseAfter (.finished (.ok path)) (writeText path (spec.modelDump pydantic) tree)
  | .finished result => (.finished result, tree)

/-- The step of a call among many. -/
def advance {ι : Type} (calls : ι → StrategySpec) (i : ι) (phase : SavePhase) (tree : FileSystem) :
    SavePhase × FileSystem :=
  saveStep registry pydantic emptyText (calls i) phase tree

end Steps

/-- No call has taken a step. -/
def allCalled (ι : Type) (tree : FileSystem) : Config ι FileSystem SavePhase where
  phase _ := .called
  shared := tree

section Alone

variable (registry : StrategyRegistry) (pydantic : Pydantic) (emptyText : PyValue)
  (spec : StrategySpec) (tree : FileSystem)

/-- A step of the call, its phase beside the disk. -/
def saveTurn (s : SavePhase × FileSystem) : SavePhase × FileSystem :=
  saveStep registry pydantic emptyText spec s.1 s.2

/-- Opening and writing are one write. -/
theorem writes_of_missing (made : FileSystem) :
    ∃ result tree',
      (writeText (registry.specPath spec.strategyId spec.version) (spec.modelDump pydantic) >>=
        fun _ => pure (registry.specPath spec.strategyId spec.version) :
          Program FileSystem Raised (List String)) made = (result, tree') ∧
      saveTurn registry pydantic emptyText spec
        (saveTurn registry pydantic emptyText spec (.fileMissing, made)) =
          (.finished result, tree') := by
  have hfirst : saveTurn registry pydantic emptyText spec (.fileMissing, made) =
      phaseAfter .fileOpened
        (writeText (registry.specPath spec.strategyId spec.version) emptyText made) := rfl
  cases hopen : writeFile made (registry.specPath spec.strategyId spec.version) emptyText with
  | error failure =>
    have hfails : ∀ content,
        writeText (registry.specPath spec.strategyId spec.version) content made =
          (.error (osError (registry.specPath spec.strategyId spec.version) failure), made) := by
      intro content
      rw [writeText, writeFile_error hopen content]
    rw [hfirst, hfails, Program.bind_of_error (hfails _)]
    exact ⟨_, made, rfl, rfl⟩
  | ok opened =>
    have hopened : writeText (registry.specPath spec.strategyId spec.version) emptyText made =
        (.ok (), opened) := by
      rw [writeText, hopen]
    cases hwrite : writeFile made (registry.specPath spec.strategyId spec.version)
        (spec.modelDump pydantic) with
    | error failure =>
      rw [writeFile_error hwrite emptyText] at hopen
      cases hopen
    | ok written =>
      have hwritten : ∀ tree, writeFile tree (registry.specPath spec.strategyId spec.version)
          (spec.modelDump pydantic) = .ok written →
            writeText (registry.specPath spec.strategyId spec.version)
              (spec.modelDump pydantic) tree = (.ok (), written) := by
        intro tree htree
        rw [writeText, htree]
      have hagain := hwritten opened ((writeFile_writeFile hopen _).trans hwrite)
      have hsecond : saveTurn registry pydantic emptyText spec (.fileOpened, opened) =
          phaseAfter (.finished (.ok (registry.specPath spec.strategyId spec.version)))
            (writeText (registry.specPath spec.strategyId spec.version)
              (spec.modelDump pydantic) opened) := rfl
      rw [hfirst, hopened, Program.bind_of_ok (hwritten made hwrite), phaseAfter, hsecond, hagain]
      exact ⟨_, written, rfl, rfl⟩

/-- Four steps that nobody interrupts are a save. -/
theorem save_eq_turns :
    ∃ result tree', registry.save pydantic spec false tree = (result, tree') ∧
      (saveTurn registry pydantic emptyText spec)^[4] (.called, tree) =
        (.finished result, tree') := by
  have hfirst : saveTurn registry pydantic emptyText spec (.called, tree) =
      phaseAfter .directoryMade (mkdir (registry.strategyDir spec.strategyId) tree) := rfl
  show ∃ result tree', _ ∧ saveTurn _ _ _ _ (saveTurn _ _ _ _ (saveTurn _ _ _ _
    (saveTurn _ _ _ _ (.called, tree)))) = _
  rw [hfirst]
  cases hmkdir : mkdir (registry.strategyDir spec.strategyId) tree with
  | mk result made =>
    cases result with
    | error e =>
      refine ⟨.error e, made, ?_, rfl⟩
      rw [StrategyRegistry.save, Program.bind_of_error hmkdir]
    | ok u =>
      have hsave : registry.save pydantic spec false tree = _ := Program.bind_of_ok hmkdir
      have hinspect : Program.inspect
          (fun tree => existing tree (registry.specPath spec.strategyId spec.version)) made =
            (existing made (registry.specPath spec.strategyId spec.version), made) := rfl
      show ∃ result tree', _ ∧ saveTurn _ _ _ _ (saveTurn _ _ _ _
        (saveTurn registry pydantic emptyText spec (.directoryMade, made))) = _
      cases hexisting : existing made (registry.specPath spec.strategyId spec.version) with
      | error e =>
        have hturn : saveTurn registry pydantic emptyText spec (.directoryMade, made) =
            (.finished (.error e), made) := by
          simp only [saveTurn, saveStep, hexisting]
        rw [hexisting] at hinspect
        rw [hsave, Program.bind_of_error hinspect, hturn]
        exact ⟨.error e, made, rfl, rfl⟩
      | ok found =>
        rw [hexisting] at hinspect
        rw [hsave, Program.bind_of_ok hinspect]
        cases found with
        | true =>
          have hturn : saveTurn registry pydantic emptyText spec (.directoryMade, made) =
              (.finished (.error (versionExists registry spec)), made) := by
            simp only [saveTurn, saveStep, hexisting]
          rw [hturn]
          exact ⟨.error (versionExists registry spec), made, rfl, rfl⟩
        | false =>
          have hturn : saveTurn registry pydantic emptyText spec (.directoryMade, made) =
              (.fileMissing, made) := by
            simp only [saveTurn, saveStep, hexisting]
          rw [hturn]
          exact writes_of_missing registry pydantic emptyText spec made

end Alone

def SamePair (spec spec' : StrategySpec) : Prop :=
  spec.strategyId = spec'.strategyId ∧ spec.version = spec'.version

structure AppendOnly (registry : StrategyRegistry) (pydantic : Pydantic) {ι : Type}
    (calls : ι → StrategySpec) (c : Config ι FileSystem SavePhase) : Prop where
  one_returns : ∀ i j path path', SamePair (calls i) (calls j) →
    c.phase i = .finished (.ok path) → c.phase j = .finished (.ok path') → i = j
  others_refused : ∀ i e, c.phase i = .finished (.error e) →
    e.cls = .app .strategyVersionExistsError
  loads : ∀ i path, c.phase i = .finished (.ok path) →
    registry.load pydantic c.shared (calls i).strategyId (calls i).version = .ok (calls i)

/-- Nobody looks for a file that another has found missing and not opened yet. -/
def Unhurried {ι : Type} (calls : ι → StrategySpec) (c : Config ι FileSystem SavePhase)
    (i : ι) : Prop :=
  c.phase i = .directoryMade → ∀ j, SamePair (calls i) (calls j) → c.phase j ≠ .fileMissing

/-- A base directory in which no strategy's directory is a file. -/
structure SharedDirectory (registry : StrategyRegistry) {ι : Type} (calls : ι → StrategySpec)
    (tree : FileSystem) : Prop where
  opens : Opens tree registry.baseDir
  no_file : ∀ i content,
    nodeAt tree (registry.baseDir ++ [(calls i).strategyId]) ≠ some (.file content)

/-! ## What a phase stands for -/

/-- The call has found its file missing, and has not failed since. -/
def SavePhase.Claims : SavePhase → Prop
  | .fileMissing => True
  | .fileOpened => True
  | .finished (.ok _) => True
  | _ => False

/-- The place of a spec's file. -/
def filePlace (registry : StrategyRegistry) (spec : StrategySpec) : List String :=
  registry.baseDir ++ [spec.strategyId] ++ [spec.version ++ ".json"]

/-- What is on the disk for a call in a phase. -/
def Stands (registry : StrategyRegistry) (pydantic : Pydantic) (spec : StrategySpec)
    (tree : FileSystem) : SavePhase → Prop
  | .called => True
  | .directoryMade => nodeAt tree (registry.baseDir ++ [spec.strategyId]) = some .directory
  | .fileMissing =>
      nodeAt tree (registry.baseDir ++ [spec.strategyId]) = some .directory ∧
        nodeAt tree (filePlace registry spec) = none
  | .fileOpened =>
      nodeAt tree (registry.baseDir ++ [spec.strategyId]) = some .directory ∧
        ∃ content, nodeAt tree (filePlace registry spec) = some (.file content)
  | .finished (.ok _) =>
      nodeAt tree (registry.baseDir ++ [spec.strategyId]) = some .directory ∧
        nodeAt tree (filePlace registry spec) = some (.file (spec.modelDump pydantic))
  | .finished (.error e) => e.cls = .app .strategyVersionExistsError

section Invariant

variable {registry : StrategyRegistry} {pydantic : Pydantic}

/-- Of a call whose file is left alone, everything stays. -/
theorem Stands.frame {spec : StrategySpec} {tree tree' : FileSystem} {phase : SavePhase}
    (h : Stands registry pydantic spec tree phase) (hkeeps : KeepsDirectories tree tree')
    (hfile : phase.Claims →
      nodeAt tree' (filePlace registry spec) = nodeAt tree (filePlace registry spec)) :
    Stands registry pydantic spec tree' phase := by
  cases phase with
  | called => trivial
  | directoryMade => exact hkeeps _ h
  | fileMissing => exact ⟨hkeeps _ h.1, (hfile trivial).trans h.2⟩
  | fileOpened =>
    obtain ⟨hdirectory, content, hcontent⟩ := h
    exact ⟨hkeeps _ hdirectory, content, (hfile trivial).trans hcontent⟩
  | finished result =>
    cases result with
    | error e => exact h
    | ok path => exact ⟨hkeeps _ h.1, (hfile trivial).trans h.2⟩

/-- Whoever claims a pair without a file has just found it missing. -/
theorem Stands.fileMissing_of_claims {spec : StrategySpec} {tree : FileSystem} {phase : SavePhase}
    (h : Stands registry pydantic spec tree phase) (hclaims : phase.Claims)
    (hnone : nodeAt tree (filePlace registry spec) = none) : phase = .fileMissing := by
  cases phase with
  | called => exact hclaims.elim
  | directoryMade => exact hclaims.elim
  | fileMissing => rfl
  | fileOpened =>
    obtain ⟨_, content, hcontent⟩ := h
    rw [hnone] at hcontent
    cases hcontent
  | finished result =>
    cases result with
    | error e => exact hclaims.elim
    | ok path =>
      have hfile := h.2
      rw [hnone] at hfile
      cases hfile

variable {ι : Type} {calls : ι → StrategySpec}

/-- The invariant of the savers. -/
structure Kept (registry : StrategyRegistry) (pydantic : Pydantic) (calls : ι → StrategySpec)
    (c : Config ι FileSystem SavePhase) : Prop where
  directory : SharedDirectory registry calls c.shared
  stands : ∀ i, Stands registry pydantic (calls i) c.shared (c.phase i)
  one : ∀ i j, SamePair (calls i) (calls j) → (c.phase i).Claims → (c.phase j).Claims → i = j

theorem kept_allCalled {tree : FileSystem} (h : SharedDirectory registry calls tree) :
    Kept registry pydantic calls (allCalled ι tree) where
  directory := h
  stands _ := trivial
  one _ _ _ hclaims := hclaims.elim

/-- What a turn has to keep for the others. -/
theorem Kept.turn [DecidableEq ι] {emptyText : PyValue} {c : Config ι FileSystem SavePhase}
    (h : Kept registry pydantic calls c) {i : ι} {phase : SavePhase} {tree : FileSystem}
    (hturn : advance registry pydantic emptyText calls i (c.phase i) c.shared = (phase, tree))
    (hkeeps : KeepsDirectories c.shared tree)
    (hno : ∀ j content,
      nodeAt tree (registry.baseDir ++ [(calls j).strategyId]) ≠ some (.file content))
    (hframe : ∀ j, j ≠ i → (c.phase j).Claims →
      nodeAt tree (filePlace registry (calls j)) =
        nodeAt c.shared (filePlace registry (calls j)))
    (hstands : Stands registry pydantic (calls i) tree phase)
    (hone : phase.Claims → ∀ j, j ≠ i → SamePair (calls i) (calls j) → ¬ (c.phase j).Claims) :
    Kept registry pydantic calls (step (advance registry pydantic emptyText calls) c i) := by
  have hshared : (step (advance registry pydantic emptyText calls) c i).shared = tree :=
    congrArg Prod.snd hturn
  have hself : (step (advance registry pydantic emptyText calls) c i).phase i = phase := by
    rw [step_phase_self, hturn]
  have hothers : ∀ j, j ≠ i →
      (step (advance registry pydantic emptyText calls) c i).phase j = c.phase j :=
    fun j hj => step_phase_of_ne c hj
  refine ⟨?_, ?_, ?_⟩
  · rw [hshared]
    exact ⟨hkeeps.opens h.directory.opens, hno⟩
  · intro j
    rw [hshared]
    by_cases hj : j = i
    · subst hj
      rw [hself]
      exact hstands
    · rw [hothers j hj]
      exact (h.stands j).frame hkeeps (hframe j hj)
  · intro j k hpair hj hk
    by_cases hji : j = i
    · subst hji
      by_cases hkj : k = j
      · exact hkj.symm
      · rw [hself] at hj
        rw [hothers k hkj] at hk
        exact absurd hk (hone hj k hkj hpair)
    · by_cases hki : k = i
      · subst hki
        rw [hself] at hk
        rw [hothers j hji] at hj
        exact absurd hj (hone hk j hji ⟨hpair.1.symm, hpair.2.symm⟩)
      · rw [hothers j hji] at hj
        rw [hothers k hki] at hk
        exact h.one j k hpair hj hk

/-! ## The turns -/

theorem filePlace_ne_strategy (spec : StrategySpec) (strategyId : String) :
    registry.baseDir ++ [strategyId] ≠ filePlace registry spec := by
  intro h
  have hlength := congrArg List.length h
  simp [filePlace] at hlength

theorem samePair_of_filePlace {spec spec' : StrategySpec}
    (h : filePlace registry spec = filePlace registry spec') : SamePair spec spec' := by
  obtain ⟨hdir, hname⟩ := List.append_inj' h rfl
  obtain ⟨_, hstrategy⟩ := List.append_inj' hdir rfl
  exact ⟨List.singleton_inj.mp hstrategy, append_json_inj.mp (List.singleton_inj.mp hname)⟩

section Put

variable (spec : StrategySpec) (tree : FileSystem) (node : Node PyValue)

theorem nodeAt_put_filePlace :
    nodeAt (put tree (filePlace registry spec) node) (filePlace registry spec) = some node := by
  rw [nodeAt_put _ (by simp [filePlace]), if_pos rfl]

theorem nodeAt_put_strategy (strategyId : String) :
    nodeAt (put tree (filePlace registry spec) node) (registry.baseDir ++ [strategyId]) =
      nodeAt tree (registry.baseDir ++ [strategyId]) := by
  rw [nodeAt_put _ (by simp [filePlace]), if_neg (filePlace_ne_strategy spec strategyId)]

theorem nodeAt_put_other {other : StrategySpec} (h : ¬ SamePair other spec) :
    nodeAt (put tree (filePlace registry spec) node) (filePlace registry other) =
      nodeAt tree (filePlace registry other) := by
  rw [nodeAt_put _ (by simp [filePlace]), if_neg fun hsame => h (samePair_of_filePlace hsame)]

end Put

theorem writeText_filePlace {spec : StrategySpec} {tree : FileSystem} (haddress : spec.Addressable)
    (hopens : Opens tree registry.baseDir)
    (hdirectory : nodeAt tree (registry.baseDir ++ [spec.strategyId]) = some .directory)
    (hnode : nodeAt tree (filePlace registry spec) ≠ some .directory) (content : PyValue) :
    writeText (registry.specPath spec.strategyId spec.version) content tree =
      (.ok (), put tree (filePlace registry spec) (.file content)) := by
  rw [writeText, Represents.specPath_eq haddress,
    writeFile_child (hopens.child haddress.strategyId hdirectory) haddress.version hnode]
  rfl

section Turns

variable [DecidableEq ι] {emptyText : PyValue} {c : Config ι FileSystem SavePhase}
  (h : Kept registry pydantic calls c) {i : ι} (haddress : (calls i).Addressable)

include h haddress

/-- Making the directory. -/
theorem Kept.makes_directory (hphase : c.phase i = .called) :
    Kept registry pydantic calls (step (advance registry pydantic emptyText calls) c i) := by
  have hmkdir := Represents.mkdir_strategyDir_of_no_file h.directory.opens haddress
    (h.directory.no_file i)
  have hnode := Represents.nodeAt_withStrategyDir_of_no_file (h.directory.no_file i)
  have hturn : advance registry pydantic emptyText calls i (c.phase i) c.shared =
      (.directoryMade,
        Represents.withStrategyDir registry c.shared (calls i).strategyId) := by
    rw [hphase, advance, saveStep, hmkdir]
    rfl
  refine h.turn hturn ?_ ?_ ?_ ?_ nofun
  · intro place hplace
    rw [hnode]
    split_ifs
    · rfl
    · exact hplace
  · intro j content
    rw [hnode]
    split_ifs
    · nofun
    · exact h.directory.no_file j content
  · intro j _ _
    rw [hnode, if_neg (filePlace_ne_strategy (calls j) (calls i).strategyId).symm]
  · show nodeAt _ _ = some .directory
    rw [hnode, if_pos rfl]

omit haddress in
/-- Writing the file, or opening it. -/
theorem Kept.writes_file {content : PyValue} {phase : SavePhase} (hclaims : (c.phase i).Claims)
    (hturn : advance registry pydantic emptyText calls i (c.phase i) c.shared =
      (phase, put c.shared (filePlace registry (calls i)) (.file content)))
    (hnode : nodeAt c.shared (filePlace registry (calls i)) ≠ some .directory)
    (hstands : Stands registry pydantic (calls i)
      (put c.shared (filePlace registry (calls i)) (.file content)) phase) :
    Kept registry pydantic calls (step (advance registry pydantic emptyText calls) c i) := by
  refine h.turn hturn (keepsDirectories_put hnode _) ?_ ?_ hstands ?_
  · intro j content
    rw [nodeAt_put_strategy]
    exact h.directory.no_file j content
  · intro j hj hclaimsOther
    exact nodeAt_put_other _ _ _ fun hpair => hj (h.one j i hpair hclaimsOther hclaims)
  · intro _ j hj hpair hclaimsOther
    exact hj (h.one i j hpair hclaims hclaimsOther).symm

omit haddress in
/-- A turn that leaves the disk alone. -/
theorem Kept.leaves_disk {phase : SavePhase}
    (hturn : advance registry pydantic emptyText calls i (c.phase i) c.shared = (phase, c.shared))
    (hstands : Stands registry pydantic (calls i) c.shared phase)
    (hone : phase.Claims → ∀ j, j ≠ i → SamePair (calls i) (calls j) → ¬ (c.phase j).Claims) :
    Kept registry pydantic calls (step (advance registry pydantic emptyText calls) c i) :=
  h.turn hturn (fun _ hplace => hplace) h.directory.no_file (fun _ _ _ => rfl) hstands hone

/-- Looking for the file. -/
theorem Kept.looks_for_file (hphase : c.phase i = .directoryMade)
    (hunhurried : Unhurried calls c i) :
    Kept registry pydantic calls (step (advance registry pydantic emptyText calls) c i) := by
  have hdirectory : nodeAt c.shared (registry.baseDir ++ [(calls i).strategyId]) =
      some .directory := by
    have hstands := h.stands i
    rw [hphase] at hstands
    exact hstands
  have hexisting : existing c.shared
      (registry.specPath (calls i).strategyId (calls i).version) =
        .ok (nodeAt c.shared (filePlace registry (calls i))).isSome := by
    rw [existing, Represents.specPath_eq haddress,
      pathExists_child (h.directory.opens.child haddress.strategyId hdirectory) haddress.version]
    rfl
  cases hnode : nodeAt c.shared (filePlace registry (calls i)) with
  | some node =>
    have hturn : advance registry pydantic emptyText calls i (c.phase i) c.shared =
        (.finished (.error (versionExists registry (calls i))), c.shared) := by
      rw [hphase, advance, saveStep, hexisting, hnode]
      rfl
    exact h.leaves_disk hturn rfl fun hclaims => hclaims.elim
  | none =>
    have hturn : advance registry pydantic emptyText calls i (c.phase i) c.shared =
        (.fileMissing, c.shared) := by
      rw [hphase, advance, saveStep, hexisting, hnode]
      rfl
    refine h.leaves_disk hturn ⟨hdirectory, hnode⟩ fun _ j _ hpair hclaims => ?_
    have hplace : filePlace registry (calls j) = filePlace registry (calls i) := by
      rw [filePlace, filePlace, hpair.1, hpair.2]
    have hmissing := (h.stands j).fileMissing_of_claims hclaims (hplace ▸ hnode)
    exact hunhurried hphase j hpair hmissing

theorem Kept.step (hunhurried : Unhurried calls c i) :
    Kept registry pydantic calls (step (advance registry pydantic emptyText calls) c i) := by
  have hstands := h.stands i
  cases hphase : c.phase i with
  | called => exact h.makes_directory haddress hphase
  | directoryMade => exact h.looks_for_file haddress hphase hunhurried
  | fileMissing =>
    rw [hphase] at hstands
    obtain ⟨hdirectory, hmissing⟩ := hstands
    have hnode : nodeAt c.shared (filePlace registry (calls i)) ≠ some .directory := by
      rw [hmissing]
      nofun
    have hturn : advance registry pydantic emptyText calls i (c.phase i) c.shared =
        (.fileOpened, put c.shared (filePlace registry (calls i)) (.file emptyText)) := by
      rw [hphase, advance, saveStep,
        writeText_filePlace haddress h.directory.opens hdirectory hnode]
      rfl
    exact h.writes_file (hphase ▸ trivial) hturn hnode
      ⟨(nodeAt_put_strategy ..).trans hdirectory, emptyText, nodeAt_put_filePlace ..⟩
  | fileOpened =>
    rw [hphase] at hstands
    obtain ⟨hdirectory, content, hcontent⟩ := hstands
    have hnode : nodeAt c.shared (filePlace registry (calls i)) ≠ some .directory := by
      rw [hcontent]
      nofun
    have hturn : advance registry pydantic emptyText calls i (c.phase i) c.shared =
        (.finished (.ok (registry.specPath (calls i).strategyId (calls i).version)),
          put c.shared (filePlace registry (calls i)) (.file ((calls i).modelDump pydantic))) := by
      rw [hphase, advance, saveStep,
        writeText_filePlace haddress h.directory.opens hdirectory hnode]
      rfl
    exact h.writes_file (hphase ▸ trivial) hturn hnode
      ⟨(nodeAt_put_strategy ..).trans hdirectory, nodeAt_put_filePlace ..⟩
  | finished result =>
    have hturn : advance registry pydantic emptyText calls i (c.phase i) c.shared =
        (.finished result, c.shared) := by
      rw [hphase]
      rfl
    rw [hphase] at hstands
    refine h.leaves_disk hturn hstands fun hclaims j hj hpair hclaimsOther => ?_
    exact hj (h.one i j hpair (hphase ▸ hclaims) hclaimsOther).symm

end Turns

/-- What the invariant says of the calls that are over. -/
theorem Kept.appendOnly {c : Config ι FileSystem SavePhase} (h : Kept registry pydantic calls c)
    (haddress : ∀ i, (calls i).Addressable) (hencodable : ∀ i, (calls i).Encodable)
    (hreads : ∀ i, pydantic.ReadsBack (calls i)) : AppendOnly registry pydantic calls c where
  one_returns i j path path' hpair hi hj :=
    h.one i j hpair (hi ▸ trivial) (hj ▸ trivial)
  others_refused i e hi := by
    have hstands := h.stands i
    rw [hi] at hstands
    exact hstands
  loads i path hi := by
    have hstands := h.stands i
    rw [hi] at hstands
    obtain ⟨hdirectory, hfile⟩ := hstands
    exact load_of_file (haddress i)
      (h.directory.opens.child (haddress i).strategyId hdirectory) hfile (hencodable i) (hreads i)

end Invariant

/-- In every run of savers in which nobody looks for a file that another has found missing and not
opened yet, the registry is append-only in every state. -/
theorem appendOnly_of_unhurried (registry : StrategyRegistry) (pydantic : Pydantic)
    (emptyText : PyValue) {ι : Type} [DecidableEq ι] (calls : ι → StrategySpec)
    (tree : FileSystem) (hdirectory : SharedDirectory registry calls tree)
    (haddress : ∀ i, (calls i).Addressable) (hencodable : ∀ i, (calls i).Encodable)
    (hreads : ∀ i, pydantic.ReadsBack (calls i)) (schedule : List ι)
    (hunhurried : Permitted (advance registry pydantic emptyText calls) (Unhurried calls)
      (allCalled ι tree) schedule) :
    ∀ before after, schedule = before ++ after → AppendOnly registry pydantic calls
      (run (advance registry pydantic emptyText calls) (allCalled ι tree) before) := by
  intro before after hschedule
  subst hschedule
  have hkept : Kept registry pydantic calls
      (run (advance registry pydantic emptyText calls) (allCalled ι tree) before) :=
    invariant_run (fun c i h hturn => h.step (haddress i) hturn) (kept_allCalled hdirectory)
      hunhurried.of_append
  exact hkept.appendOnly haddress hencodable hreads

theorem valid_rivalVersion : (exampleFields "v1" secondMorning).Valid := by decide +kernel

/-- The first version once more, a day later. -/
def rivalVersion : StrategySpec :=
  { exampleFields "v1" secondMorning with valid := valid_rivalVersion }

def rivals (second : Bool) : StrategySpec := if second then rivalVersion else firstVersion

def exampleRegistry : StrategyRegistry where
  baseDir := ["strategies"]

def SavePhase.looks : SavePhase → Bool
  | .directoryMade => true
  | _ => false

def SavePhase.missed : SavePhase → Bool
  | .fileMissing => true
  | _ => false

def SavePhase.returned : SavePhase → Bool
  | .finished (.ok _) => true
  | _ => false

theorem SavePhase.exists_of_returned {phase : SavePhase} (h : phase.returned = true) :
    ∃ path, phase = .finished (.ok path) := by
  cases phase with
  | finished result =>
    cases result with
    | ok path => exact ⟨path, rfl⟩
    | error e => cases h
  | called => cases h
  | directoryMade => cases h
  | fileMissing => cases h
  | fileOpened => cases h

theorem sharedDirectory_exampleDisk : SharedDirectory exampleRegistry rivals exampleDisk where
  opens := emptyDirectory_exampleDisk.opens
  no_file i content := by
    have hnone := emptyDirectory_exampleDisk.below [(rivals i).strategyId] (by simp)
    show nodeAt exampleDisk (["strategies"] ++ [(rivals i).strategyId]) ≠ _
    rw [hnone]
    nofun

/-- The second looks for the file when the first has returned. -/
theorem patient_savers : AppendOnly exampleRegistry exampleForms rivals
    (run (advance exampleRegistry exampleForms .none rivals) (allCalled Bool exampleDisk)
      [false, false, false, false, true, true]) := by
  refine appendOnly_of_unhurried exampleRegistry exampleForms .none rivals exampleDisk
    sharedDirectory_exampleDisk ?_ ?_ ?_ _ ?_ _ [] (List.append_nil _).symm
  · intro i
    cases i with
    | false => exact addressable_example isName_v1Json _
    | true => exact addressable_example isName_v1Json _
  · intro i
    cases i with
    | false => exact encodable_example (.inl rfl) _
    | true => exact encodable_example (.inr rfl) _
  · intro i
    cases i with
    | false => exact readsBack_exampleForms (.inl rfl) _
    | true => exact readsBack_exampleForms (.inr rfl) _
  · refine permitted_of_take fun n i hturn hphase j _ hmissed => ?_
    have hcheck : ∀ n : Fin 6, ∀ i j : Bool,
        [false, false, false, false, true, true][n.val]? = some i →
        ((run (advance exampleRegistry exampleForms .none rivals) (allCalled Bool exampleDisk)
          ([false, false, false, false, true, true].take n.val)).phase i).looks = true →
        ((run (advance exampleRegistry exampleForms .none rivals) (allCalled Bool exampleDisk)
          ([false, false, false, false, true, true].take n.val)).phase j).missed = false := by
      decide +kernel
    have hn : n < 6 := (List.getElem?_eq_some_iff.mp hturn).1
    have hnone := hcheck ⟨n, hn⟩ i j hturn (hphase ▸ rfl)
    rw [hmissed] at hnone
    cases hnone

/-- Both find the file missing, and both return. -/
theorem hurried_savers :
    let c := run (advance exampleRegistry exampleForms .none rivals) (allCalled Bool exampleDisk)
      [false, false, true, true, false, false, true, true]
    (c.phase false).returned = true ∧ (c.phase true).returned = true ∧
      (exampleRegistry.load exampleForms c.shared "momentum" "v1").toOption = some rivalVersion ∧
      ¬ AppendOnly exampleRegistry exampleForms rivals c := by
  have hfirst : ((run (advance exampleRegistry exampleForms .none rivals)
      (allCalled Bool exampleDisk)
      [false, false, true, true, false, false, true, true]).phase false).returned = true := by
    decide +kernel
  have hsecond : ((run (advance exampleRegistry exampleForms .none rivals)
      (allCalled Bool exampleDisk)
      [false, false, true, true, false, false, true, true]).phase true).returned = true := by
    decide +kernel
  refine ⟨hfirst, hsecond, by decide +kernel, fun h => ?_⟩
  obtain ⟨path, hpath⟩ := SavePhase.exists_of_returned hfirst
  obtain ⟨path', hpath'⟩ := SavePhase.exists_of_returned hsecond
  cases h.one_returns false true path path' ⟨rfl, rfl⟩ hpath hpath'

end Research
end QuantPlatform
