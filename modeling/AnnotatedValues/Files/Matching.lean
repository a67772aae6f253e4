import AnnotatedValues.Files.Basic
import AnnotatedValues.Files.Wildcard

/-! # Files that match a pattern

Components without wildcards are looked up; for the others directories are listed, in the order of
the names. A directory that matches comes before what is in it. What is known of a name from the
list that it was in is not asked for again. -/
namespace AnnotatedValues.Wildcard

open Files

/-- A path on the way to a match, and whether it is a directory's. -/
structure Reached where
  path : String
  isDirectory : Bool
  deriving DecidableEq, Repr, Inhabited

/-- A directory that cannot be listed. -/
structure Unlisted where
  path : String
  fault : FileFault
  deriving DecidableEq, Repr, Inhabited

variable {m : Type → Type} [Monad m] [Files m]

/-- The longest path has at most so many names. -/
def maxDepth : Nat := 2048

def isPoints (name : String) : Bool := name == "." || name == ".."

/-- The path of a name in a directory; names in the working directory stand alone. -/
def pathIn (directory name : String) : String :=
  if Path.isCurrent directory then name else Path.child directory name

/-- What a path leads to, as far as it matters here. -/
def reach (path : String) : ExceptT Unlisted m Reached := do
  return ⟨path, ← (isDirectory path : m Bool)⟩

/-- The names in a directory, in order. -/
def sortedNames (directory : String) : ExceptT Unlisted m (List (String × Bool)) := do
  match ← (list directory : m _) with
  | .ok names => return names.mergeSort fun a b => decide (a.1 ≤ b.1)
  | .error fault => throw ⟨directory, fault⟩

/-- How a search goes on below a directory, for components that are left. -/
abbrev Below (m : Type → Type) := List (List Token) → Reached → ExceptT Unlisted m (List String)

/-- A path that matches all components. -/
def settled (needsDirectory : Bool) (here : Reached) : List String :=
  if !needsDirectory || here.isDirectory then [here.path] else []

/-- The matches of the components below a path, which `below` finds if there are any. -/
def continued (needsDirectory : Bool) (below : Below m) (components : List (List Token))
    (here : Reached) : ExceptT Unlisted m (List String) :=
  if components.isEmpty then return settled needsDirectory here else below components here

/-- The matches that start with `name` in a directory, for components the first of which has no
wildcards of depth. -/
def matchesAt (needsDirectory : Bool) (below : Below m) (components : List (List Token))
    (here : Reached) (name : String) : ExceptT Unlisted m (List String) :=
  match components with
  | [] => return []
  | tokens :: rest =>
    if isMatch tokens name.toList then continued needsDirectory below rest here else return []

/-- The matches that start with `name`, which leads to `here`. -/
def visit (needsDirectory : Bool) (below : Below m) (components : List (List Token))
    (here : Reached) (name : String) : ExceptT Unlisted m (List String) := do
  match components with
  | [.deep] :: rest =>
    let rest := rest.dropWhile (· == [.deep])
    if here.isDirectory then
      if rest.isEmpty then return here.path :: (← below [[.deep]] here)
      else
        let found ← matchesAt needsDirectory below rest here name
        return found ++ (← below ([.deep] :: rest) here)
    else matchesAt needsDirectory below rest here name
  | _ => matchesAt needsDirectory below components here name

/-- The names of points that a component matches. It must start with a point. -/
def pointNames : List Token → List String
  | .char '.' :: tokens =>
    ["..", "."].filter fun name => isMatch (.char '.' :: tokens) name.toList
  | _ => []

/-- The matches of components in a directory. Each step of the fuel goes down one name. -/
def search (needsDirectory : Bool) : (fuel : Nat) → Below m
  | 0, _, _ => return []
  | _, [], _ => return []
  | fuel + 1, tokens :: rest, directory => do
    let below := search needsDirectory fuel
    match literal? tokens with
    | some name =>
      let name := String.ofList name
      let path := pathIn directory.path name
      let present ← if isPoints name then pure directory.isDirectory else (isPresent path : m Bool)
      if present then continued needsDirectory below rest (← reach path) else return []
    | none =>
      if directory.isDirectory then
        let names ← sortedNames directory.path
        let points ← (pointNames tokens).mapM fun name => do
          continued needsDirectory below rest (← reach (Path.child directory.path name))
        let found ← names.mapM fun (name, isDirectory) =>
          visit needsDirectory below (tokens :: rest) ⟨pathIn directory.path name, isDirectory⟩ name
        return points.flatten ++ found.flatten
      else return []

/-- The paths that match a pattern. -/
def Pattern.paths (p : Pattern) : m (Except Unlisted (List String)) := do
  let root := if p.isRooted then "/" else "."
  let isDirectory ← isDirectory root
  (search p.needsDirectory (maxDepth + p.components.length) p.components ⟨root, isDirectory⟩).run

end AnnotatedValues.Wildcard
