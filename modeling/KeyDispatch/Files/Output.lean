import KeyDispatch.Files.Path
import KeyDispatch.Files.Store

/-!
# Output files

`write` replaces a file by way of a temporary file beside it, so that the file holds either its
old or its new text at any time. `isUpToDate` compares a file with a text.
-/

namespace KeyDispatch.OutputFile

variable {m : Type → Type} [Monad m] [FileStore m]

/-- The path of the temporary file beside a file. -/
def temporary (processId : Nat) (directory name : String) : String :=
  Path.join directory (name ++ "." ++ toString processId ++ ".tmp")

/-- A failed step, after the temporary file is removed as far as possible. -/
def abandon (path : String) (e : FileError) : m (Except FileError Unit) := do
  let _ ← FileStore.remove path
  return .error e

/-- Replaces the text of a file. -/
def write (processId : Nat) (path text : String) : m (Except FileError Unit) := do
  match Path.split? path with
  | none => return .error .noFileName
  | some (directory, name) =>
    let beside := temporary processId directory name
    match ← FileStore.writeText beside text with
    | .error e => abandon beside e
    | .ok () =>
      match ← FileStore.rename beside path with
      | .error e => abandon beside e
      | .ok () => return .ok ()

/-- The file holds exactly the text. A file that does not exist does not. -/
def isUpToDate (path text : String) : m (Except FileError Bool) := do
  match ← FileStore.readText path with
  | .ok existing => return .ok (existing == text)
  | .error .notFound => return .ok false
  | .error e => return .error e

end KeyDispatch.OutputFile
