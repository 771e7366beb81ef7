/-
`StrategyRegistry`: one JSON file for each version of a strategy.

A spec is kept in `<base_dir>/<strategy_id>/<version>.json`.  Both ids are texts of any
form and become parts of a path as they are.  A file is kept as the JSON value of its
text.

Saving makes the directory of the strategy before it looks for the file, and refuses to
write over a file unless told to.
-/
import QuantPlatform.Effects.Program
import QuantPlatform.Files.Tree
import QuantPlatform.Research.Models
import Mathlib.Data.List.Sort
import Mathlib.Data.String.Basic

namespace QuantPlatform
namespace Research

open QuantPlatform.Core Effects Files

abbrev FileSystem := FileTree PyValue

structure StrategyRegistry where
  /-- The names of the directory from the root down. -/
  baseDir : List String

/-- `str(path)`. -/
def pathText (path : List String) : String := "/" ++ "/".intercalate path

/-- The exception for what the system refuses. -/
def osError (path : List String) : Failure → Raised
  | .nulByte => { cls := .other .valueError, text := "embedded null byte" }
  | .notFound =>
      { cls := .other (.other "FileNotFoundError")
        text := "[Errno 2] No such file or directory: " ++ reprStr (pathText path) }
  | .alreadyExists =>
      { cls := .other (.other "FileExistsError")
        text := "[Errno 17] File exists: " ++ reprStr (pathText path) }
  | .notADirectory =>
      { cls := .other (.other "NotADirectoryError")
        text := "[Errno 20] Not a directory: " ++ reprStr (pathText path) }
  | .isADirectory =>
      { cls := .other (.other "IsADirectoryError")
        text := "[Errno 21] Is a directory: " ++ reprStr (pathText path) }
  | .nameTooLong =>
      { cls := .other (.other "OSError")
        text := "[Errno 36] File name too long: " ++ reprStr (pathText path) }

/-- `path.exists()`. -/
def existing (tree : FileSystem) (path : List String) : Except Raised Bool :=
  (pathExists tree path).mapError (osError path)

/-- `path.mkdir(parents=True, exist_ok=True)`. -/
def mkdir (path : List String) : Program FileSystem Raised Unit := fun tree =>
  ((makeDirectory tree path).2.mapError (osError path), (makeDirectory tree path).1)

/-- `path.write_text(text)`. -/
def writeText (path : List String) (text : PyValue) : Program FileSystem Raised Unit := fun tree =>
  match writeFile tree path text with
  | .ok written => (.ok (), written)
  | .error failure => (.error (osError path failure), tree)

/-- `path.stem`: the name up to its last full stop, unless that comes first or last. -/
def stem (name : String) : String :=
  let suffix := name.toList.reverse.takeWhile (· ≠ '.')
  match name.toList.reverse.dropWhile (· ≠ '.') with
  | [] => name
  | _ :: before => if before = [] ∨ suffix = [] then name else String.ofList before.reverse

/-- What `*.json` matches. -/
def isJsonName (name : String) : Bool := ".json".toList.isSuffixOf name.toList

def sortedTexts (texts : List String) : List String := texts.insertionSort (· ≤ ·)

/-- `a > b`, which raises for a naive and an aware datetime. -/
def laterThan (a b : WrittenDatetime) : Except Raised Bool :=
  match a.utcoffset, b.utcoffset with
  | some _, none | none, some _ =>
      .error {
        cls := .other .typeError
        text := "can't compare offset-naive and offset-aware datetimes" }
  | some x, some y => .ok (decide (b.wallTime - y < a.wallTime - x))
  | none, none => .ok (decide (b.wallTime < a.wallTime))

/-- `max(specs, key=lambda spec: spec.created_at)`: the first of the latest. -/
def latestOf : List StrategySpec → Except Raised StrategySpec
  | [] => .error { cls := .other .valueError, text := "max() arg is an empty sequence" }
  | first :: rest =>
      rest.foldlM (fun latest spec => do
        if ← laterThan spec.createdAt latest.createdAt then return spec else return latest) first

namespace StrategyRegistry

variable (registry : StrategyRegistry) (pydantic : Pydantic)

def strategyDir (strategyId : String) : List String := joinPath registry.baseDir strategyId

def specPath (strategyId version : String) : List String :=
  joinPath (registry.strategyDir strategyId) (version ++ ".json")

def save (spec : StrategySpec) (overwrite : Bool) : Program FileSystem Raised (List String) := do
  mkdir (registry.strategyDir spec.strategyId)
  let path := registry.specPath spec.strategyId spec.version
  let found ← Program.inspect fun tree => existing tree path
  if found ∧ ¬ overwrite then
    Program.raise {
      cls := .app .strategyVersionExistsError
      text := spec.strategyId ++ " version " ++ spec.version ++ " already exists at " ++
        pathText path }
  else do
    writeText path (spec.modelDump pydantic)
    return path

def load (tree : FileSystem) (strategyId version : String) : Except Raised StrategySpec := do
  let path := registry.specPath strategyId version
  if ← existing tree path then
    let text ← (readFile tree path).mapError (osError path)
    match StrategySpec.modelValidate pydantic text with
    | some spec => return spec
    | none =>
        throw { cls := .other (.other "ValidationError"), text := pydantic.errorText text }
  else
    throw {
      cls := .app .strategyNotFoundError
      text := strategyId ++ " version " ++ version ++ " not found at " ++ pathText path }

def listVersions (tree : FileSystem) (strategyId : String) : Except Raised (List String) := do
  let dir := registry.strategyDir strategyId
  if ← existing tree dir then
    let children :=
      match locate tree dir with
      | .ok place => if isDirectory tree place then childNames tree place else []
      | .error _ => []
    return sortedTexts ((children.filter isJsonName).map stem)
  else return []

def loadLatest (tree : FileSystem) (strategyId : String) : Except Raised StrategySpec := do
  let versions ← registry.listVersions tree strategyId
  if versions.isEmpty then
    throw {
      cls := .app .strategyNotFoundError
      text := "no versions found for " ++ strategyId }
  let specs ← versions.mapM (registry.load pydantic tree strategyId)
  latestOf specs

def listStrategyIds (tree : FileSystem) : Except Raised (List String) := do
  if ← existing tree registry.baseDir then
    if isDirectory tree registry.baseDir then
      return sortedTexts ((childNames tree registry.baseDir).filter fun name =>
        isDirectory tree (registry.baseDir ++ [name]))
    else throw (osError registry.baseDir .notADirectory)
  else return []

end StrategyRegistry

end Research
end QuantPlatform
