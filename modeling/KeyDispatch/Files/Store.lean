import KeyDispatch.Event
import KeyDispatch.Files.Error

/-!
# Stores of files

`FileStore` is what the program asks of a file system. `LoggedT` is a step on a store that reports
events and may fail.
-/

namespace KeyDispatch

/-- Operations on files by path: is it a regular file, does it exist, its text, replacing its text,
moving it over another path, and removing it. -/
class FileStore (m : Type → Type) where
  isFile : String → m Bool
  pathExists : String → m Bool
  readText : String → m (Except FileError String)
  writeText : String → String → m (Except FileError Unit)
  rename : String → String → m (Except FileError Unit)
  remove : String → m (Except FileError Unit)

/-- A step in `m` that reports events and may fail. -/
def LoggedT (m : Type → Type) (ε α : Type) : Type := m (Logged ε α)

namespace LoggedT

variable {m : Type → Type} [Monad m] {ε δ α β : Type}

instance : Monad (LoggedT m ε) where
  pure a := (pure ⟨[], .ok a⟩ : m (Logged ε _))
  bind x f :=
    (do
      let first ← (show m (Logged ε _) from x)
      match first.outcome with
      | .error e => pure ⟨first.events, .error e⟩
      | .ok a =>
        let second ← (show m (Logged ε _) from f a)
        pure ⟨first.events ++ second.events, second.outcome⟩ : m (Logged ε _))

/-- A step that touches no file. -/
def ofLogged (x : Logged ε α) : LoggedT m ε α := (pure x : m (Logged ε α))

/-- A step that reports nothing and cannot fail. -/
def lift (x : m α) : LoggedT m ε α := (do return ⟨[], .ok (← x)⟩ : m (Logged ε α))

/-- A step that reports nothing, with another account of its failure. -/
def ofExcept (f : δ → ε) (x : m (Except δ α)) : LoggedT m ε α :=
  (do
    match ← x with
    | .error e => pure ⟨[], .error (f e)⟩
    | .ok a => pure ⟨[], .ok a⟩ : m (Logged ε α))

/-- A step with another account of its failure. -/
def mapError (f : δ → ε) (x : LoggedT m δ α) : LoggedT m ε α :=
  (do return (← (show m (Logged δ α) from x)).mapError f : m (Logged ε α))

/-- A step that reports one event. -/
def report (e : Event) : LoggedT m ε Unit := ofLogged (Logged.report e)

/-- A step that fails. -/
def fail (e : ε) : LoggedT m ε α := ofLogged (Logged.fail e)

end LoggedT

end KeyDispatch
