import KeyDispatch.Config
import KeyDispatch.Files.Path
import KeyDispatch.Files.Store
import KeyDispatch.Generation

/-!
# Input files

Where the headers and the configuration file are, and their texts. A configured path of a header is
used as it is; otherwise the usual places are tried in order.
-/

namespace KeyDispatch

/-- What a run knows of its surroundings: the variables `HOME` and `XDG_CONFIG_HOME`, the home
directory of the user's account, and a number that no other running process has. -/
structure Environment where
  home : Option String
  configHome : Option String
  accountHome : Option String
  processId : Nat

namespace Environment

/-- The home directory: the variable unless it is unset or empty, or else the account's. -/
def homeDirectory? (env : Environment) : Option String :=
  match env.home with
  | some home => if home.isEmpty then env.accountHome else some home
  | none => env.accountHome

/-- The directory of configurations: the variable if it is an absolute path, or else a directory
in the home directory. -/
def configDirectory? (env : Environment) : Option String :=
  match env.configHome.filter Path.isAbsolute with
  | some path => some path
  | none => env.homeDirectory?.map fun home => Path.join home ".config"

/-- The path of the configuration file where none is given. -/
def configPath? (env : Environment) : Option String :=
  env.configDirectory?.map fun dir => Path.join (Path.join dir "keysymgen") "config.toml"

end Environment

/-- Paths of the headers. -/
structure SourcePaths where
  keysymdef : String
  vendor : String
  toolkit : String
deriving DecidableEq

namespace SourcePaths

/-- The path of one header. -/
def path (p : SourcePaths) : Source → String
  | .keysymdef => p.keysymdef
  | .vendor => p.vendor
  | .toolkit => p.toolkit

/-- The usual places of a header, most specific first. -/
def candidates (env : Environment) : Source → List String
  | .toolkit =>
    ["/usr/include/qt5/QtCore/qnamespace.h",
     "/usr/include/x86_64-linux-gnu/qt5/QtCore/qnamespace.h"]
      ++ (env.homeDirectory?.map fun home =>
        Path.join home "Qt/5.5/clang_64/lib/QtCore.framework/Headers/qnamespace.h").toList
  | source => [source.fileName, Path.join "/usr/include/X11" source.fileName]

variable {m : Type → Type} [Monad m] [FileStore m]

/-- The first path of a list that leads to a file. -/
def firstFile : List String → m (Option String)
  | [] => return none
  | path :: rest => do
    if ← FileStore.isFile path then return some path else firstFile rest

/-- The path of one header. -/
def locateOne (env : Environment) (source : Source) (configured : Option String) :
    m (Logged ConfigError String) := do
  match configured with
  | some path =>
    if ← FileStore.isFile path then return pure path
    else return .fail (.missingInput source [path])
  | none =>
    match ← firstFile (candidates env source) with
    | some path => return ⟨[.foundInput source path], .ok path⟩
    | none => return .fail (.missingInput source (candidates env source))

/-- The paths of all headers. Each header is looked for before the first one missing is an error. -/
def locate (env : Environment) (inputs : InputPaths) : LoggedT m ConfigError SourcePaths :=
  (do
    let keysymdef ← locateOne env .keysymdef inputs.keysymdef
    let vendor ← locateOne env .vendor inputs.vendor
    let toolkit ← locateOne env .toolkit inputs.toolkit
    return ⟨keysymdef.events ++ vendor.events ++ toolkit.events, do
      return ⟨← keysymdef.outcome, ← vendor.outcome, ← toolkit.outcome⟩⟩ :
    m (Logged ConfigError SourcePaths))

/-- The text of one header. -/
def readOne (path : String) : LoggedT m ConfigError String :=
  .ofExcept (.unreadableInput path) (FileStore.readText path)

/-- The texts of all headers. -/
def read (p : SourcePaths) : LoggedT m ConfigError SourceTexts := do
  return ⟨← readOne p.keysymdef, ← readOne p.vendor, ← readOne p.toolkit⟩

end SourcePaths

namespace Config

variable {m : Type → Type} [Monad m] [FileStore m]

/-- The configuration in a file. -/
def load (path : String) : LoggedT m ConfigError Config := do
  let text ← .ofExcept .file (FileStore.readText path)
  match ofToml? text with
  | some config => return config
  | none => .fail (.malformed none)

/-- The configuration in the file at the usual place, or the one in which nothing is set if there
is no such file. -/
def loadDefault (env : Environment) : LoggedT m ConfigError Config := do
  match env.configPath? with
  | none => return default
  | some path =>
    if ← .lift (FileStore.pathExists path) then do
      .report (.loadingConfig path)
      load path
    else return default

end Config

end KeyDispatch
