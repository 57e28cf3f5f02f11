import KeyDispatch.Run

/-!
# The program

`main` runs a command line on the files of the machine. Events go to the standard error stream, and
so does the account of a failure. The exit code is 0 after a run that succeeds, 1 after one that
fails, and 2 if the command line cannot be read.
-/

namespace KeyDispatch

/-! ## Files of the machine -/

/-- Number and wording that the operating system gives to an error. -/
def systemCause? : IO.Error → Option (UInt32 × String)
  | .interrupted _ n text | .noFileOrDirectory _ n text => some (n, text)
  | .alreadyExists _ n text | .invalidArgument _ n text | .permissionDenied _ n text
  | .resourceExhausted _ n text | .inappropriateType _ n text | .noSuchThing _ n text =>
    some (n, text)
  | .otherError n text | .resourceBusy n text | .resourceVanished n text
  | .unsupportedOperation n text | .hardwareFault n text | .unsatisfiedConstraints n text
  | .illegalOperation n text | .protocolError n text | .timeExpired n text => some (n, text)
  | .unexpectedEof | .userError _ => none

/-- The file error that an error of the machine stands for. -/
def FileError.ofMachine (e : IO.Error) : FileError :=
  match systemCause? e with
  | some (2, _) => .notFound
  | some (16, _) => .busy
  | some (20, _) => .notADirectory
  | some (21, _) => .isADirectory
  | some (36, _) => .nameTooLong
  | some (n, text) => .system (text ++ " (os error " ++ toString n ++ ")")
  | none => .system (toString e)

/-- The outcome of an action on the file at a path of the machine. -/
def attemptAt {α : Type} (path : String) (action : IO α) : IO (Except FileError α) := do
  if Path.holdsTerminator path then return .error .terminatorInPath
  else
    match ← action.toBaseIO with
    | .ok a => return .ok a
    | .error e => return .error (.ofMachine e)

/-- What stands at a path, if anything. -/
def fileType? (path : String) : IO (Option IO.FS.FileType) := do
  match ← attemptAt path ((← IO.currentDir) / path).metadata with
  | .ok found => return some found.type
  | .error _ => return none

instance : FileStore IO where
  isFile path := return (← fileType? path) == some .file
  pathExists path := return (← fileType? path).isSome
  readText path := do
    match ← attemptAt path (IO.FS.readBinFile path) with
    | .error e => return .error e
    | .ok bytes =>
      match String.fromUTF8? bytes with
      | some text => return .ok text
      | none => return .error .invalidText
  writeText path text := attemptAt path (IO.FS.writeFile path text)
  rename old new := attemptAt (old ++ new) (IO.FS.rename old new)
  remove path := attemptAt path (IO.FS.removeFile path)

/-- The number of this process, which stands first in the account that the system keeps of it.
Without such an account the clock gives a number. -/
def processId : IO Nat := do
  match ← (IO.FS.readFile "/proc/self/stat").toBaseIO with
  | .ok account =>
    match (String.ofList (account.toList.takeWhile Char.isDigit)).toNat? with
    | some n => return n
    | none => IO.monoNanosNow
  | .error _ => IO.monoNanosNow

/-- The home directory of an account, from the system's list of accounts: the sixth field of the
line whose third field is the number of the account. -/
def homeOf? (accounts number : String) : Option String :=
  ((accounts.splitOn "\n").map fun line => line.splitOn ":").findSome? fun fields =>
    if fields[2]? == some number then fields[5]? else none

/-- The home directory of the account that this process runs under. -/
def accountHome : IO (Option String) := do
  match ← (IO.FS.readFile "/proc/self/status").toBaseIO,
      ← (IO.FS.readFile "/etc/passwd").toBaseIO with
  | .ok account, .ok accounts =>
    let numbers := (account.splitOn "\n").find? fun line => line.startsWith "Uid:"
    return numbers.bind fun line =>
      ((line.splitOn "\t")[1]?).bind fun number => homeOf? accounts number
  | _, _ => return none

/-- The surroundings of this process. -/
def machineEnvironment : IO Environment :=
  return ⟨← IO.getEnv "HOME", ← IO.getEnv "XDG_CONFIG_HOME", ← accountHome, ← processId⟩

/-! ## Texts of the program -/

/-- What the help says. -/
def helpLines : List String :=
  ["Generate a Qt key to X11 keysym dispatch table",
   "",
   "Usage: keysymgen [OPTIONS]",
   "",
   "Options:",
   "      --config <CONFIG>    TOML configuration file",
   "      --keysymdef <PATH>   Path to keysymdef.h",
   "      --vendor <PATH>      Path to XF86keysym.h",
   "      --toolkit <PATH>     Path to Qt's qnamespace.h",
   "  -o, --output <PATH>      Where to write the generated file",
   "      --format <FORMAT>    Output language: rust or cpp-header",
   "      --check              Fail if the existing output differs, without writing",
   "      --deny-unresolved    Fail without writing if any Qt key stays unresolved",
   "  -v, --verbose            Enable debug logging",
   "  -h, --help               Print help",
   "  -V, --version            Print version"]

/-- What is said when no run follows. -/
def UsageStop.text : UsageStop → String
  | .displayHelp => Artifact.textOfLines helpLines
  | .displayVersion => versionText
  | .unknownArgument => "error: unexpected argument found\n"
  | .invalidValue => "error: a value is required for an option but none was supplied\n"
  | .valueValidation => "error: invalid value for '--format <FORMAT>'\n"
  | .argumentConflict => "error: an option cannot be used multiple times\n"
  | .tooManyValues => "error: unexpected value for a switch found\n"

/-- What is said of a failure: the outermost account, and what caused it. -/
def failureText : List String → String
  | [] => ""
  | account :: [] => "Error: " ++ account ++ "\n"
  | account :: causes =>
    let listed := match causes with
      | [cause] => ["    " ++ cause]
      | causes => causes.zipIdx.map fun c => "    " ++ toString c.2 ++ ": " ++ c.1
    "Error: " ++ account ++ "\n\nCaused by:\n" ++ Artifact.textOfLines listed

/-! ## Running -/

/-- Prints the events of a run that are to be shown. -/
def printEvents (level : Level) (events : List Event) : IO Unit :=
  (Event.shownLines level events).forM IO.eprintln

/-- Runs the program with the arguments of a command line that could be read. -/
def runOnMachine (args : Arguments) : IO UInt32 := do
  let action : LoggedT IO RunFailure Unit := run (← machineEnvironment) args
  let result ← (show IO (Logged RunFailure Unit) from action)
  printEvents (if args.verbose then .debug else .info) result.events
  match result.outcome with
  | .ok () => return 0
  | .error e =>
    IO.eprint (failureText e.chain)
    return 1

end KeyDispatch

/-- Runs a command line and gives the exit code. -/
def main (args : List String) : IO UInt32 := do
  match KeyDispatch.Arguments.parse args with
  | .ok args => KeyDispatch.runOnMachine args
  | .error stop =>
    if stop.exitCode = 0 then IO.print stop.text else IO.eprint stop.text
    return stop.exitCode.toUInt32
