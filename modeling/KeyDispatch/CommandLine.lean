import KeyDispatch.Artifact
import KeyDispatch.Config

/-!
# Command line

`Arguments.parse` reads the arguments from left to right. An option takes the rest of its argument
or the next argument as its value; the value is checked when the next option, switch or the end is
reached. An argument that nothing accepts ends the reading at once.
-/

namespace KeyDispatch

/-- Options with a value. -/
inductive ValueOption where
  | config
  | keysymdef
  | vendor
  | toolkit
  | output
  | format
deriving DecidableEq

/-- Options without a value. -/
inductive Switch where
  | check
  | denyUnresolved
  | verbose
  | help
  | version
deriving DecidableEq

/-- An option of either kind. -/
inductive AnyOption where
  | value (o : ValueOption)
  | switch (s : Switch)
deriving DecidableEq

namespace AnyOption

/-- The option of a long name. -/
def ofLong? : String → Option AnyOption
  | "config" => some (.value .config)
  | "keysymdef" => some (.value .keysymdef)
  | "vendor" => some (.value .vendor)
  | "toolkit" => some (.value .toolkit)
  | "output" => some (.value .output)
  | "format" => some (.value .format)
  | "check" => some (.switch .check)
  | "deny-unresolved" => some (.switch .denyUnresolved)
  | "verbose" => some (.switch .verbose)
  | "help" => some (.switch .help)
  | "version" => some (.switch .version)
  | _ => none

/-- The option of a letter. -/
def ofLetter? : Char → Option AnyOption
  | 'o' => some (.value .output)
  | 'v' => some (.switch .verbose)
  | 'h' => some (.switch .help)
  | 'V' => some (.switch .version)
  | _ => none

end AnyOption

/-- What the command line asks for. -/
structure Arguments where
  config : Option String
  keysymdef : Option String
  vendor : Option String
  toolkit : Option String
  output : Option String
  format : Option OutputFormat
  check : Bool
  denyUnresolved : Bool
  verbose : Bool
deriving DecidableEq

/-- Why no run follows: nothing accepts an argument, a value is missing or empty, a value is not
one of those allowed, an option is given twice, a switch is given a value, or only the help or the
version is asked for. -/
inductive UsageStop where
  | unknownArgument
  | invalidValue
  | valueValidation
  | argumentConflict
  | tooManyValues
  | displayHelp
  | displayVersion
deriving DecidableEq

namespace UsageStop

/-- Exit code. -/
def exitCode : UsageStop → Nat
  | displayHelp => 0
  | displayVersion => 0
  | _ => 2

/-- Name and version of the program. -/
def versionText : String := "keysymgen 0.2.1\n"

end UsageStop

namespace Arguments

/-- Nothing is given. -/
def none : Arguments := ⟨.none, .none, .none, .none, .none, .none, false, false, false⟩

/-- Sets a path that is not set yet and must not be empty. -/
def setPath (given : Option String) (value : String) (set : Option String → Arguments) :
    Except UsageStop Arguments :=
  if given.isSome then .error .argumentConflict
  else if value.isEmpty then .error .invalidValue
  else .ok (set (some value))

/-- The arguments with the value of an option. -/
def store (a : Arguments) (o : ValueOption) (value : String) : Except UsageStop Arguments :=
  match o with
  | .config => setPath a.config value fun v => { a with config := v }
  | .keysymdef => setPath a.keysymdef value fun v => { a with keysymdef := v }
  | .vendor => setPath a.vendor value fun v => { a with vendor := v }
  | .toolkit => setPath a.toolkit value fun v => { a with toolkit := v }
  | .output => setPath a.output value fun v => { a with output := v }
  | .format =>
    if a.format.isSome then .error .argumentConflict
    else
      match OutputFormat.ofName? value with
      | .none => .error .valueValidation
      | some f => .ok { a with format := some f }

/-- The arguments with a switch turned on. -/
def turnOn (a : Arguments) : Switch → Except UsageStop Arguments
  | .check => if a.check then .error .argumentConflict else .ok { a with check := true }
  | .denyUnresolved =>
    if a.denyUnresolved then .error .argumentConflict else .ok { a with denyUnresolved := true }
  | .verbose => if a.verbose then .error .argumentConflict else .ok { a with verbose := true }
  | .help => .error .displayHelp
  | .version => .error .displayVersion

/-- An option whose value is not stored yet. -/
inductive Pending where
  | nothing
  | awaiting (o : ValueOption)
  | holding (o : ValueOption) (value : String)

/-- Arguments read so far, and the option at hand. -/
structure Reading where
  given : Arguments
  pending : Pending

namespace Reading

/-- The arguments after the option at hand is stored. -/
def settle (r : Reading) : Except UsageStop Arguments :=
  match r.pending with
  | .nothing => .ok r.given
  | .awaiting _ => .error .invalidValue
  | .holding o value => r.given.store o value

/-- Takes an option with its value in the same argument. -/
def takeAttached (r : Reading) (o : ValueOption) (value : String) : Except UsageStop Reading := do
  return ⟨← (← r.settle).store o value, .nothing⟩

/-- Takes an option whose value is the next argument. -/
def takeOption (r : Reading) (o : ValueOption) : Except UsageStop Reading := do
  return ⟨← r.settle, .awaiting o⟩

/-- Takes a switch. -/
def takeSwitch (r : Reading) (s : Switch) : Except UsageStop Reading := do
  return ⟨← (← r.settle).turnOn s, .nothing⟩

/-- Takes an argument of two dashes, a name and perhaps an equals sign and a value. -/
def takeLong (r : Reading) (text : List Char) : Except UsageStop Reading :=
  let value := text.dropWhile (· != '=')
  match AnyOption.ofLong? (String.ofList (text.takeWhile (· != '='))) with
  | .none => .error .unknownArgument
  | some (.value o) =>
    match value with
    | [] => r.takeOption o
    | _ :: value => r.takeAttached o (String.ofList value)
  | some (.switch s) => if value.isEmpty then r.takeSwitch s else .error .tooManyValues

/-- Takes the letters of an argument of one dash. Behind the letter of an option stands its value,
with or without an equals sign. -/
def takeLetters (r : Reading) : List Char → Except UsageStop Reading
  | [] => .ok r
  | c :: rest =>
    match AnyOption.ofLetter? c with
    | .none => .error .unknownArgument
    | some (.switch s) =>
      match r.takeSwitch s with
      | .error e => .error e
      | .ok r => r.takeLetters rest
    | some (.value o) =>
      match rest with
      | [] => r.takeOption o
      | '=' :: value => r.takeAttached o (String.ofList value)
      | value => r.takeAttached o (String.ofList value)

/-- Takes an argument that is neither. Only an option at hand accepts it. -/
def takePlain (r : Reading) (text : String) : Except UsageStop Reading :=
  match r.pending with
  | .awaiting o => .ok ⟨r.given, .holding o text⟩
  | _ => .error .unknownArgument

/-- Takes the remaining arguments. Two dashes alone end the options, and nothing may follow. -/
def takeAll (r : Reading) : List String → Except UsageStop Arguments
  | [] => r.settle
  | arg :: rest =>
    match arg.toList with
    | ['-', '-'] => if rest.isEmpty then r.settle else .error .unknownArgument
    | '-' :: '-' :: text =>
      match r.takeLong text with
      | .error e => .error e
      | .ok r => r.takeAll rest
    | '-' :: c :: text =>
      match r.takeLetters (c :: text) with
      | .error e => .error e
      | .ok r => r.takeAll rest
    | _ =>
      match r.takePlain arg with
      | .error e => .error e
      | .ok r => r.takeAll rest

end Reading

/-- The arguments of a command line. -/
def parse (args : List String) : Except UsageStop Arguments := Reading.takeAll ⟨none, .nothing⟩ args

/-- The configuration with what the command line gives put over it. -/
def mergeInto (a : Arguments) (c : Config) : Config :=
  { c with
    inputs :=
      ⟨a.keysymdef.or c.inputs.keysymdef, a.vendor.or c.inputs.vendor,
        a.toolkit.or c.inputs.toolkit⟩
    output :=
      { c.output with path := a.output.or c.output.path, format := a.format.or c.output.format } }

end Arguments

end KeyDispatch
