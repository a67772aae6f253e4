import AnnotatedValues.Error
import AnnotatedValues.Files.Path

/-! # Access to files

The operations on files that the commands need, for any place where files are kept. -/
namespace AnnotatedValues

class Files (m : Type → Type) where
  read : (path : String) → m (Except FileFault String)
  /-- Writes a text in place of what the file holds, if it exists. -/
  write : (path text : String) → m (Except FileFault Unit)
  makeDirectory : (path : String) → m (Except FileFault Unit)
  isDirectory : (path : String) → m Bool
  isPresent : (path : String) → m Bool
  /-- The names in a directory, in any order, each with whether it is one of a directory. -/
  list : (path : String) → m (Except FileFault (List (String × Bool)))

namespace Files

variable {m : Type → Type} [Monad m] [Files m]

/-- Makes a directory that may exist already. -/
def ensureDirectory (path : String) : m (Except FileFault Unit) := do
  match ← makeDirectory path with
  | .ok () => return .ok ()
  | .error fault => return if ← isDirectory path then .ok () else .error fault

/-- Makes the directory with the given pieces, in reverse order, and those above it that are
missing. -/
def ensureDirectories : List Path.Piece → m (Except FileFault Unit)
  | [] => return .ok ()
  | piece :: rest => do
    if Path.isIdle piece && !rest.isEmpty then ensureDirectories rest
    else
      let path := Path.text (piece :: rest)
      match ← ensureDirectory path with
      | .error .missing =>
        match ← ensureDirectories rest with
        | .ok () => ensureDirectory path
        | .error fault => return .error fault
      | result => return result

end Files

end AnnotatedValues
