/-
Directory trees and the paths that lead through them.

A tree is a table of entries keyed by path, the names from the root down; the root
itself is always a directory.  A path is followed name by name: every name but the
last has to lead to a directory, and `..` leads back up.  There are no links, so a
path leads to one place and a place that is reached by plain names has one path.

What a text is as a path is decided before any of that: it is cut at its slashes,
and an absolute text forgets the directory it is joined to.
-/
import QuantPlatform.Relational.Table

namespace Files

open Relational

/-- The text between slashes. -/
def cutAtSlashes : List Char → List (List Char)
  | [] => [[]]
  | c :: rest =>
      if c = '/' then [] :: cutAtSlashes rest
      else
        match cutAtSlashes rest with
        | [] => [[c]]
        | part :: parts => (c :: part) :: parts

/-- The names a text writes; an empty one and `.` stand for no step. -/
def names (text : String) : List String :=
  ((cutAtSlashes text.toList).map String.ofList).filter fun name => name ≠ "" ∧ name ≠ "."

/-- `dir / text`. -/
def joinPath (dir : List String) (text : String) : List String :=
  if text.toList.head? = some '/' then names text else dir ++ names text

/-- The longest name a directory can hold, in bytes. -/
def nameMax : Nat := 255

/-- A text that is one step down. -/
structure IsName (text : String) : Prop where
  nonempty : text ≠ ""
  no_slash : '/' ∉ text.toList
  not_here : text ≠ "."
  not_up : text ≠ ".."
  no_nul : Char.ofNat 0 ∉ text.toList
  fits : text.utf8ByteSize ≤ nameMax

theorem cutAtSlashes_of_not_mem {text : List Char} (h : '/' ∉ text) :
    cutAtSlashes text = [text] := by
  induction text with
  | nil => rfl
  | cons c rest ih =>
    rw [List.mem_cons, not_or] at h
    rw [cutAtSlashes, if_neg (Ne.symm h.1), ih h.2]

theorem names_of_isName {text : String} (h : IsName text) : names text = [text] := by
  rw [names, cutAtSlashes_of_not_mem h.no_slash, List.map_singleton, String.ofList_toList]
  simp [h.nonempty, h.not_here]

theorem joinPath_of_isName (dir : List String) {text : String} (h : IsName text) :
    joinPath dir text = dir ++ [text] := by
  have hrelative : text.toList.head? ≠ some '/' := fun hhead =>
    h.no_slash (List.mem_of_mem_head? hhead)
  rw [joinPath, if_neg hrelative, names_of_isName h]

inductive Node (C : Type)
  | directory
  | file (content : C)
  deriving DecidableEq, Repr

structure Entry (C : Type) where
  path : List String
  node : Node C

abbrev FileTree (C : Type) := Table (Entry C) Entry.path

/-- Why the system refuses an operation. -/
inductive Failure
  | nulByte
  | notFound
  | notADirectory
  | isADirectory
  | alreadyExists
  | nameTooLong
  deriving DecidableEq, Repr

variable {C : Type}

def nodeAt (t : FileTree C) (path : List String) : Option (Node C) :=
  if path = [] then some .directory else (t.find path).map Entry.node

/-- What is put at a path takes the place of what was there. -/
def replaceNode (C : Type) : ConflictClause (Entry C) Entry.path where
  set old new := { old with node := new.node }
  key_set _ _ := rfl

def put (t : FileTree C) (path : List String) (node : Node C) : FileTree C :=
  t.insert (replaceNode C) { path, node }

def hasNul (path : List String) : Bool :=
  path.any fun name => name.toList.contains (Char.ofNat 0)

/-- One step from a directory. -/
def step (here : List String) (name : String) : List String :=
  if name = ".." then here.dropLast else here ++ [name]

/-- Follows names from a place.  Whether the last one leads to anything is not asked. -/
def walk (t : FileTree C) : List String → List String → Except Failure (List String)
  | here, [] => .ok here
  | here, name :: rest =>
      match nodeAt t here with
      | none => .error .notFound
      | some (.file _) => .error .notADirectory
      | some .directory =>
          if nameMax < name.utf8ByteSize then .error .nameTooLong
          else walk t (step here name) rest

def locate (t : FileTree C) (path : List String) : Except Failure (List String) :=
  if hasNul path then .error .nulByte else walk t [] path

/-- Whether there is something at a path, and a failure other than not finding it. -/
def pathExists (t : FileTree C) (path : List String) : Except Failure Bool :=
  match locate t path with
  | .ok place => .ok (nodeAt t place).isSome
  | .error .nameTooLong => .error .nameTooLong
  | .error _ => .ok false

/-- Enters directories one after the other and makes the ones that are missing. -/
def enterOrMake (t : FileTree C) : List String → List String → FileTree C × Except Failure Unit
  | _, [] => (t, .ok ())
  | here, name :: rest =>
      if nameMax < name.utf8ByteSize then (t, .error .nameTooLong)
      else
        match nodeAt t (step here name) with
        | some .directory => enterOrMake t (step here name) rest
        | some (.file _) => (t, .error (if rest = [] then .alreadyExists else .notADirectory))
        | none => enterOrMake (put t (step here name) .directory) (step here name) rest

/-- A directory with its parents; one that exists is left alone. -/
def makeDirectory (t : FileTree C) (path : List String) : FileTree C × Except Failure Unit :=
  if hasNul path then (t, .error .nulByte) else enterOrMake t [] path

def writeFile (t : FileTree C) (path : List String) (content : C) :
    Except Failure (FileTree C) := do
  let place ← locate t path
  match nodeAt t place with
  | some .directory => throw .isADirectory
  | _ => return put t place (.file content)

def readFile (t : FileTree C) (path : List String) : Except Failure C := do
  let place ← locate t path
  match nodeAt t place with
  | none => throw .notFound
  | some .directory => throw .isADirectory
  | some (.file content) => return content

/-- The names in a directory, in no order that means anything. -/
def childNames (t : FileTree C) (dir : List String) : List String :=
  t.rows.filterMap fun entry => if entry.path.dropLast = dir then entry.path.getLast? else none

/-- `path.is_dir()` of a place. -/
def isDirectory (t : FileTree C) (place : List String) : Bool :=
  match nodeAt t place with
  | some .directory => true
  | _ => false

/-! ## What is where -/

theorem isDirectory_iff (t : FileTree C) (place : List String) :
    isDirectory t place = true ↔ nodeAt t place = some .directory := by
  unfold isDirectory
  cases nodeAt t place with
  | none => simp
  | some node => cases node <;> simp

@[simp] theorem nodeAt_root (t : FileTree C) : nodeAt t [] = some .directory := if_pos rfl

theorem nodeAt_concat (t : FileTree C) (dir : List String) (name : String) :
    nodeAt t (dir ++ [name]) = (t.find (dir ++ [name])).map Entry.node :=
  if_neg (by simp)

theorem nodeAt_put (t : FileTree C) {path : List String} (hpath : path ≠ []) (node : Node C)
    (place : List String) :
    nodeAt (put t path node) place = if place = path then some node else nodeAt t place := by
  by_cases hplace : place = path
  · subst hplace
    rw [nodeAt, if_neg hpath, if_pos rfl]
    show ((t.insert (replaceNode C) ⟨place, node⟩).find (Entry.path ⟨place, node⟩)).map _ = _
    rw [Table.find_insert_self]
    cases t.find place <;> rfl
  · rw [if_neg hplace, nodeAt, nodeAt, put, Table.find_insert_of_ne _ _ hplace]

/-- What is put last stays. -/
theorem put_put (t : FileTree C) (path : List String) (first second : Node C) :
    put (put t path first) path second = put t path second :=
  Table.insert_insert (replaceNode C) t rfl (fun _ => rfl) rfl

theorem mem_childNames_iff (t : FileTree C) (dir : List String) (name : String) :
    name ∈ childNames t dir ↔ (nodeAt t (dir ++ [name])).isSome := by
  have hlast : ∀ path : List String, (path.dropLast = dir ∧ path.getLast? = some name) ↔
      path = dir ++ [name] := by
    intro path
    constructor
    · intro h
      obtain ⟨hdir, hname⟩ := h
      obtain ⟨front, hfront⟩ := List.getLast?_eq_some_iff.mp hname
      rw [hfront, List.dropLast_concat] at hdir
      rw [hfront, hdir]
    · intro h
      rw [h, List.dropLast_concat, List.getLast?_concat]
      exact ⟨rfl, rfl⟩
  rw [nodeAt_concat, Option.isSome_map, childNames, List.mem_filterMap, Option.isSome_iff_exists]
  constructor
  · intro h
    obtain ⟨entry, hentry, hname⟩ := h
    split_ifs at hname with hdir
    exact ⟨entry, (t.find_eq_some_iff _ _).mpr ⟨hentry, (hlast _).mp ⟨hdir, hname⟩⟩⟩
  · intro h
    obtain ⟨entry, hfind⟩ := h
    obtain ⟨hentry, hpath⟩ := (t.find_eq_some_iff _ _).mp hfind
    obtain ⟨hdir, hname⟩ := (hlast _).mpr hpath
    exact ⟨entry, hentry, by rw [if_pos hdir, hname]⟩

theorem childNames_nodup (t : FileTree C) (dir : List String) : (childNames t dir).Nodup := by
  rw [childNames, List.Nodup, List.pairwise_filterMap]
  have hpaths : t.rows.Pairwise fun a b => a.path ≠ b.path := List.pairwise_map.mp t.unique
  refine hpaths.imp fun {a b} hne x hx y hy hxy => hne ?_
  split_ifs at hx hy with ha hb
  obtain ⟨front, hfront⟩ := List.getLast?_eq_some_iff.mp hx
  obtain ⟨front', hfront'⟩ := List.getLast?_eq_some_iff.mp hy
  rw [hfront, List.dropLast_concat] at ha
  rw [hfront', List.dropLast_concat] at hb
  rw [hfront, hfront', ha, hb, hxy]

/-! ## Places that plain names reach -/

/-- The path leads to a directory, and to that very place. -/
structure Opens (t : FileTree C) (dir : List String) : Prop where
  no_nul : hasNul dir = false
  walks : walk t [] dir = .ok dir
  directory : nodeAt t dir = some .directory

theorem walk_cons_eq_ok_iff {t : FileTree C} {here place : List String} {name : String}
    {rest : List String} :
    walk t here (name :: rest) = .ok place ↔
      nodeAt t here = some .directory ∧ name.utf8ByteSize ≤ nameMax ∧
        walk t (step here name) rest = .ok place := by
  rw [walk]
  cases hnode : nodeAt t here with
  | none => simp
  | some node =>
    cases node with
    | file content => simp
    | directory =>
      by_cases hlong : nameMax < name.utf8ByteSize
      · simp [hlong]
      · simp [hlong, Nat.not_lt.mp hlong]

theorem walk_append (t : FileTree C) (path rest : List String) {here place : List String}
    (h : walk t here path = .ok place) : walk t here (path ++ rest) = walk t place rest := by
  induction path generalizing here with
  | nil =>
    cases h
    rfl
  | cons name path ih =>
    obtain ⟨hnode, hshort, hwalk⟩ := walk_cons_eq_ok_iff.mp h
    rw [List.cons_append, walk]
    simp only [hnode]
    rw [if_neg (Nat.not_lt.mpr hshort), ih hwalk]

theorem hasNul_concat {dir : List String} (hdir : hasNul dir = false) {name : String}
    (hname : IsName name) : hasNul (dir ++ [name]) = false := by
  have hno := hname.no_nul
  simp only [hasNul, List.any_append, List.any_cons, List.any_nil, Bool.or_false,
    Bool.or_eq_false_iff]
  exact ⟨hdir, by simpa using hno⟩

theorem Opens.walk_child {t : FileTree C} {dir : List String} (h : Opens t dir) {name : String}
    (hname : IsName name) : walk t [] (dir ++ [name]) = .ok (dir ++ [name]) := by
  rw [walk_append t dir [name] h.walks]
  simp only [walk, h.directory]
  rw [if_neg (Nat.not_lt.mpr hname.fits), step, if_neg hname.not_up]

theorem Opens.locate_child {t : FileTree C} {dir : List String} (h : Opens t dir) {name : String}
    (hname : IsName name) : locate t (dir ++ [name]) = .ok (dir ++ [name]) := by
  rw [locate, hasNul_concat h.no_nul hname, h.walk_child hname]
  rfl

theorem Opens.child {t : FileTree C} {dir : List String} (h : Opens t dir) {name : String}
    (hname : IsName name) (hnode : nodeAt t (dir ++ [name]) = some .directory) :
    Opens t (dir ++ [name]) :=
  ⟨hasNul_concat h.no_nul hname, h.walk_child hname, hnode⟩

/-- Directories stay where they are. -/
def KeepsDirectories (t t' : FileTree C) : Prop :=
  ∀ path, nodeAt t path = some .directory → nodeAt t' path = some .directory

theorem KeepsDirectories.walk {t t' : FileTree C} (hkeeps : KeepsDirectories t t')
    {path here place : List String} (h : walk t here path = .ok place) :
    Files.walk t' here path = .ok place := by
  induction path generalizing here with
  | nil => exact h
  | cons name path ih =>
    obtain ⟨hnode, hshort, hwalk⟩ := walk_cons_eq_ok_iff.mp h
    exact walk_cons_eq_ok_iff.mpr ⟨hkeeps here hnode, hshort, ih hwalk⟩

theorem KeepsDirectories.opens {t t' : FileTree C} (hkeeps : KeepsDirectories t t')
    {dir : List String} (h : Opens t dir) : Opens t' dir :=
  ⟨h.no_nul, hkeeps.walk h.walks, hkeeps dir h.directory⟩

theorem ne_root_of_not_directory {t : FileTree C} {place : List String}
    (h : nodeAt t place ≠ some .directory) : place ≠ [] := by
  intro hnil
  rw [hnil, nodeAt_root] at h
  exact h rfl

theorem keepsDirectories_put {t : FileTree C} {place : List String}
    (hplace : nodeAt t place ≠ some .directory) (node : Node C) :
    KeepsDirectories t (put t place node) := by
  intro path hpath
  rw [nodeAt_put t (ne_root_of_not_directory hplace), if_neg]
  · exact hpath
  · intro hsame
    exact hplace (hsame ▸ hpath)

/-- Where a file is written that a path leads to. -/
theorem writeFile_of_located {t : FileTree C} {path place : List String}
    (hlocate : locate t path = .ok place) (hplace : nodeAt t place ≠ some .directory)
    (content : C) : writeFile t path content = .ok (put t place (.file content)) := by
  rw [writeFile, hlocate]
  show (match nodeAt t place with
    | some .directory => throw Failure.isADirectory
    | _ => return put t place (.file content)) = _
  cases hat : nodeAt t place with
  | none => rfl
  | some node =>
    cases node with
    | directory => exact absurd hat hplace
    | file _ => rfl

theorem writeFile_of_directory {t : FileTree C} {path place : List String}
    (hlocate : locate t path = .ok place) (hplace : nodeAt t place = some .directory)
    (content : C) : writeFile t path content = .error .isADirectory := by
  rw [writeFile, hlocate]
  show (match nodeAt t place with
    | some .directory => throw Failure.isADirectory
    | _ => return put t place (.file content)) = _
  rw [hplace]
  rfl

/-- What refuses to write does not ask for the content. -/
theorem writeFile_error {t : FileTree C} {path : List String} {first : C} {failure : Failure}
    (h : writeFile t path first = .error failure) (second : C) :
    writeFile t path second = .error failure := by
  cases hlocate : locate t path with
  | error failure =>
    rw [writeFile, hlocate] at h ⊢
    exact h
  | ok place =>
    by_cases hplace : nodeAt t place = some .directory
    · rw [writeFile_of_directory hlocate hplace] at h ⊢
      exact h
    · rw [writeFile_of_located hlocate hplace] at h
      cases h

/-- A file that was written can be written again. -/
theorem writeFile_writeFile {t t' : FileTree C} {path : List String} {first : C}
    (h : writeFile t path first = .ok t') (second : C) :
    writeFile t' path second = writeFile t path second := by
  cases hlocate : locate t path with
  | error failure =>
    rw [writeFile, hlocate] at h
    cases h
  | ok place =>
    have hplace : nodeAt t place ≠ some .directory := by
      intro hdirectory
      rw [writeFile_of_directory hlocate hdirectory] at h
      cases h
    rw [writeFile_of_located hlocate hplace] at h
    cases h
    have hkeeps := keepsDirectories_put hplace (.file first)
    have hlocate' : locate (put t place (.file first)) path = .ok place := by
      unfold locate at hlocate ⊢
      by_cases hnul : hasNul path = true
      · rw [if_pos hnul] at hlocate
        cases hlocate
      · rw [if_neg hnul] at hlocate ⊢
        exact hkeeps.walk hlocate
    have hplace' : nodeAt (put t place (.file first)) place ≠ some .directory := by
      rw [nodeAt_put t (ne_root_of_not_directory hplace), if_pos rfl]
      nofun
    rw [writeFile_of_located hlocate hplace, writeFile_of_located hlocate' hplace', put_put]

section Places

variable {t : FileTree C} {dir : List String} (hdir : Opens t dir) {name : String}
  (hname : IsName name)

include hdir hname

theorem pathExists_child :
    pathExists t (dir ++ [name]) = .ok (nodeAt t (dir ++ [name])).isSome := by
  rw [pathExists, hdir.locate_child hname]

/-- There is nothing below a name that leads nowhere. -/
theorem pathExists_below_missing (hmissing : nodeAt t (dir ++ [name]) = none) {below : String}
    (hbelow : IsName below) : pathExists t (dir ++ [name] ++ [below]) = .ok false := by
  have hwalk : walk t [] (dir ++ [name] ++ [below]) = .error .notFound := by
    rw [walk_append t (dir ++ [name]) [below] (hdir.walk_child hname), walk, hmissing]
  rw [pathExists, locate, hasNul_concat (hasNul_concat hdir.no_nul hname) hbelow, hwalk]
  rfl

theorem readFile_child {content : C} (hnode : nodeAt t (dir ++ [name]) = some (.file content)) :
    readFile t (dir ++ [name]) = .ok content := by
  rw [readFile, hdir.locate_child hname]
  show (match nodeAt t (dir ++ [name]) with
    | none => throw Failure.notFound
    | some .directory => throw Failure.isADirectory
    | some (.file content) => return content) = _
  rw [hnode]
  rfl

theorem writeFile_child (hnode : nodeAt t (dir ++ [name]) ≠ some .directory) (content : C) :
    writeFile t (dir ++ [name]) content = .ok (put t (dir ++ [name]) (.file content)) :=
  writeFile_of_located (hdir.locate_child hname) hnode content

end Places

/-- Directories that are there are entered. -/
theorem enterOrMake_append (t : FileTree C) (path rest : List String) {here place : List String}
    (hwalk : walk t here path = .ok place) (hplace : nodeAt t place = some .directory) :
    enterOrMake t here (path ++ rest) = enterOrMake t place rest := by
  induction path generalizing here with
  | nil =>
    cases hwalk
    rfl
  | cons name path ih =>
    obtain ⟨_, hshort, hwalk⟩ := walk_cons_eq_ok_iff.mp hwalk
    have hnext : nodeAt t (step here name) = some .directory := by
      cases path with
      | nil =>
        cases hwalk
        exact hplace
      | cons name' path => exact (walk_cons_eq_ok_iff.mp hwalk).1
    rw [List.cons_append, enterOrMake, if_neg (Nat.not_lt.mpr hshort)]
    simp only [hnext]
    exact ih hwalk

/-- A directory below one that is there is made, or found. -/
theorem makeDirectory_child {t : FileTree C} {dir : List String} (hdir : Opens t dir)
    {name : String} (hname : IsName name)
    (hnode : ∀ content, nodeAt t (dir ++ [name]) ≠ some (.file content)) :
    makeDirectory t (dir ++ [name]) =
      (if (nodeAt t (dir ++ [name])).isSome then t else put t (dir ++ [name]) .directory,
        .ok ()) := by
  have hstep : step dir name = dir ++ [name] := if_neg hname.not_up
  rw [makeDirectory, hasNul_concat hdir.no_nul hname]
  simp only [Bool.false_eq_true, if_false]
  rw [enterOrMake_append t dir [name] hdir.walks hdir.directory, enterOrMake, hstep,
    if_neg (Nat.not_lt.mpr hname.fits)]
  cases hat : nodeAt t (dir ++ [name]) with
  | none => rfl
  | some node =>
    cases node with
    | directory => rfl
    | file content => exact absurd hat (hnode content)

/-! ## What stays -/

/-- What is there stays there. -/
def Keeps (t t' : FileTree C) : Prop :=
  ∀ path node, nodeAt t path = some node → nodeAt t' path = some node

theorem Keeps.refl (t : FileTree C) : Keeps t t := fun _ _ h => h

theorem Keeps.trans {t t' t'' : FileTree C} (h : Keeps t t') (h' : Keeps t' t'') : Keeps t t'' :=
  fun path node hnode => h' path node (h path node hnode)

theorem Keeps.keepsDirectories {t t' : FileTree C} (h : Keeps t t') : KeepsDirectories t t' :=
  fun path => h path .directory

theorem keeps_put {t : FileTree C} {path : List String} (hmissing : nodeAt t path = none)
    (node : Node C) : Keeps t (put t path node) := by
  have hroot : path ≠ [] := by
    intro hnil
    rw [hnil, nodeAt_root] at hmissing
    cases hmissing
  intro place found hfound
  rw [nodeAt_put t hroot, if_neg]
  · exact hfound
  · intro hsame
    rw [hsame, hmissing] at hfound
    cases hfound

/-- Making directories only adds some, also when it is refused on the way. -/
theorem keeps_enterOrMake (path : List String) (t : FileTree C) (here : List String) :
    Keeps t (enterOrMake t here path).1 := by
  induction path generalizing t here with
  | nil => exact Keeps.refl t
  | cons name rest ih =>
    rw [enterOrMake]
    by_cases hlong : nameMax < name.utf8ByteSize
    · rw [if_pos hlong]
      exact Keeps.refl t
    · rw [if_neg hlong]
      cases hnode : nodeAt t (step here name) with
      | none => exact (keeps_put hnode .directory).trans (ih _ _)
      | some node =>
        cases node with
        | directory => exact ih t (step here name)
        | file content => exact Keeps.refl t

theorem keeps_makeDirectory (t : FileTree C) (path : List String) :
    Keeps t (makeDirectory t path).1 := by
  rw [makeDirectory]
  split
  · exact Keeps.refl t
  · exact keeps_enterOrMake path t []

theorem KeepsDirectories.locate {t t' : FileTree C} (h : KeepsDirectories t t')
    {path place : List String} (hlocate : Files.locate t path = .ok place) :
    Files.locate t' path = .ok place := by
  unfold Files.locate at hlocate ⊢
  split_ifs at hlocate ⊢
  exact h.walk hlocate

theorem writeFile_eq_ok_iff {t t' : FileTree C} {path : List String} {content : C} :
    writeFile t path content = .ok t' ↔
      ∃ place, locate t path = .ok place ∧ nodeAt t place ≠ some .directory ∧
        t' = put t place (.file content) := by
  constructor
  · intro h
    cases hlocate : locate t path with
    | error failure =>
      rw [writeFile, hlocate] at h
      cases h
    | ok place =>
      by_cases hplace : nodeAt t place = some .directory
      · rw [writeFile_of_directory hlocate hplace] at h
        cases h
      · rw [writeFile_of_located hlocate hplace] at h
        exact ⟨place, rfl, hplace, (Except.ok.inj h).symm⟩
  · intro h
    obtain ⟨place, hlocate, hplace, rfl⟩ := h
    exact writeFile_of_located hlocate hplace content

/-- The path leads to a file with the content. -/
def Holds (t : FileTree C) (path : List String) (content : C) : Prop :=
  ∃ place, locate t path = .ok place ∧ nodeAt t place = some (.file content)

theorem Holds.readFile {t : FileTree C} {path : List String} {content : C}
    (h : Holds t path content) : readFile t path = .ok content := by
  obtain ⟨place, hlocate, hnode⟩ := h
  rw [Files.readFile, hlocate]
  show (match nodeAt t place with
    | none => throw Failure.notFound
    | some .directory => throw Failure.isADirectory
    | some (.file content) => return content) = _
  rw [hnode]
  rfl

theorem Holds.keeps {t t' : FileTree C} {path : List String} {content : C}
    (h : Holds t path content) (hkeeps : Keeps t t') : Holds t' path content := by
  obtain ⟨place, hlocate, hnode⟩ := h
  exact ⟨place, hkeeps.keepsDirectories.locate hlocate, hkeeps place _ hnode⟩

theorem holds_of_writeFile {t t' : FileTree C} {path : List String} {content : C}
    (h : writeFile t path content = .ok t') : Holds t' path content := by
  obtain ⟨place, hlocate, hplace, rfl⟩ := writeFile_eq_ok_iff.mp h
  refine ⟨place, (keepsDirectories_put hplace _).locate hlocate, ?_⟩
  rw [nodeAt_put t (ne_root_of_not_directory hplace), if_pos rfl]

theorem getLast?_walk {t : FileTree C} {name : String} (hup : name ≠ "..") {dir : List String}
    {here place : List String} (h : walk t here (dir ++ [name]) = .ok place) :
    place.getLast? = some name := by
  induction dir generalizing here with
  | nil =>
    obtain ⟨_, _, hwalk⟩ := walk_cons_eq_ok_iff.mp h
    cases hwalk
    rw [step, if_neg hup, List.getLast?_concat]
  | cons first dir ih =>
    obtain ⟨_, _, hwalk⟩ := walk_cons_eq_ok_iff.mp h
    exact ih hwalk

/-- A path that ends in a name leads to a place of that name. -/
theorem getLast?_locate {t : FileTree C} {name : String} (hup : name ≠ "..") {dir : List String}
    {place : List String} (h : locate t (dir ++ [name]) = .ok place) :
    place.getLast? = some name := by
  unfold locate at h
  split_ifs at h
  exact getLast?_walk hup h

/-- A file of one name is not touched by what is written under another, whatever the
directories the two paths go through. -/
theorem Holds.writeFile_of_ne {t t' : FileTree C} {dir other : List String} {name name' : String}
    {content content' : C} (h : Holds t (dir ++ [name]) content)
    (hwrite : writeFile t (other ++ [name']) content' = .ok t') (hup : name ≠ "..")
    (hup' : name' ≠ "..") (hne : name ≠ name') : Holds t' (dir ++ [name]) content := by
  obtain ⟨place, hlocate, hnode⟩ := h
  obtain ⟨place', hlocate', hplace', rfl⟩ := writeFile_eq_ok_iff.mp hwrite
  have hplaces : place ≠ place' := by
    intro hsame
    have hname := getLast?_locate hup hlocate
    rw [hsame, getLast?_locate hup' hlocate'] at hname
    exact hne (Option.some.inj hname).symm
  refine ⟨place, (keepsDirectories_put hplace' _).locate hlocate, ?_⟩
  rw [nodeAt_put t (ne_root_of_not_directory hplace'), if_neg hplaces]
  exact hnode

end Files
