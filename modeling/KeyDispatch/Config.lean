import KeyDispatch.Artifact
import KeyDispatch.Files.Error
import KeyDispatch.Overrides.Builtin
import KeyDispatch.Toml.Document

/-!
# Configuration

A configuration names the headers, says where the generated file goes and what it looks like, and
adds override entries. `Config.ofToml?` reads one from a TOML document: unknown fields are
refused, and a record may also be given as an array of its fields in order.
-/

namespace KeyDispatch

/-- Configured paths of the headers. -/
structure InputPaths where
  keysymdef : Option String
  vendor : Option String
  toolkit : Option String
deriving DecidableEq

namespace InputPaths

/-- No path is configured. -/
def none : InputPaths := ⟨.none, .none, .none⟩

/-- The path of one header. -/
def path? (p : InputPaths) : Source → Option String
  | .keysymdef => p.keysymdef
  | .vendor => p.vendor
  | .toolkit => p.toolkit

end InputPaths

/-- Configured properties of the generated file. -/
structure OutputChoice where
  path : Option String
  format : Option OutputFormat
  functionName : Option String
deriving DecidableEq

/-- A configuration. -/
structure Config where
  inputs : InputPaths
  output : OutputChoice
  extensions : Extensions
deriving DecidableEq

/-- Why the configuration or an input cannot be had: a file cannot be read, it is no
configuration, no header was found at any of the places searched, or a header cannot be read. -/
inductive ConfigError where
  | file (e : FileError)
  | malformed (detail : Option String)
  | missingInput (source : Source) (searched : List String)
  | unreadableInput (path : String) (e : FileError)
deriving DecidableEq

namespace ConfigError

/-- Wording of the error. -/
def message : ConfigError → String
  | file e => "IO error: " ++ e.message
  | malformed none => "TOML parse error"
  | malformed (some detail) => "TOML parse error: " ++ detail
  | missingInput source searched =>
    "unable to find " ++ source.fileName ++ " (searched: "
      ++ (if searched.isEmpty then "nothing" else ", ".intercalate searched) ++ ")"
  | unreadableInput path e => "failed to read " ++ path ++ ": " ++ e.message

/-- The error and what caused it, from the outside in. -/
def chain : ConfigError → List String
  | file e => [(file e).message, e.message]
  | unreadableInput path e => [(unreadableInput path e).message, e.message]
  | e => [e.message]

end ConfigError

namespace Config

open Toml (Value Members)

/-- The configuration in which nothing is set. -/
def default : Config := ⟨.none, ⟨none, none, none⟩, .none⟩

/-- The values of a record's fields. A table holds fields by name and no others. An array holds
them in order; it may hold more, and fewer only if the record is `open`. -/
def fields? (names : List String) (mayBeShort : Bool) : Value → Option (List (Option Value))
  | .table _ members => ofMembers members
  | .array items => ofItems items
  | .tables elements => ofItems (elements.map (.table .header))
  | _ => none
where
  ofMembers (members : Members) : Option (List (Option Value)) :=
    if members.all fun m => names.contains m.1 then
      some (names.map fun name => (members.find? fun m => m.1 == name).map (·.2))
    else none
  ofItems (items : List Value) : Option (List (Option Value)) :=
    if !mayBeShort && items.length < names.length then none
    else some ((List.range names.length).map fun i => items[i]?)

/-- A field that may be missing. -/
def optional {α : Type} (read : Value → Option α) : Option Value → Option (Option α)
  | none => some none
  | some v => (read v).map some

/-- A field with a value for when it is missing. -/
def withDefault {α : Type} (missing : α) (read : Value → Option α) : Option Value → Option α
  | none => some missing
  | some v => read v

/-- A string. -/
def string? : Value → Option String
  | .text s => some s
  | _ => none

/-- A list of strings. -/
def strings? : Value → Option (List String)
  | .array items => items.mapM string?
  | _ => none

/-- A table from names to strings. A date counts as a table with its text under a reserved name. -/
def names? : Value → Option (SortedMap String String)
  | .table _ members =>
    (members.mapM fun m => (string? m.2).map fun s => (m.1, s)).map SortedMap.ofList
  | .datetime written => some (.ofList [("$__toml_private_datetime", written)])
  | _ => none

/-- A value without content, as it may stand behind the name of a format. -/
def isVoid : Value → Bool
  | .table _ members => members.isEmpty
  | .array items => items.isEmpty
  | .tables elements => elements.isEmpty
  | _ => false

/-- A format: its name, or a table in which the name stands for nothing. -/
def format? : Value → Option OutputFormat
  | .text s => OutputFormat.ofName? s
  | .table _ [(name, v)] => if isVoid v then OutputFormat.ofName? name else none
  | _ => none

/-- A record of three fields, each with its reader. -/
def record? {α β γ δ : Type} (names : List String) (mayBeShort : Bool)
    (first : Option Value → Option α) (second : Option Value → Option β)
    (third : Option Value → Option γ) (make : α → β → γ → δ) (v : Value) : Option δ := do
  match ← fields? names mayBeShort v with
  | [a, b, c] => return make (← first a) (← second b) (← third c)
  | _ => none

/-- Paths of the headers. -/
def inputs? : Value → Option InputPaths :=
  record? ["keysymdef", "vendor", "toolkit"] false (optional string?) (optional string?)
    (optional string?) .mk

/-- Properties of the generated file. -/
def output? : Value → Option OutputChoice :=
  record? ["path", "format", "function"] false (optional string?) (optional format?)
    (optional string?) .mk

/-- Override entries. -/
def extensions? : Value → Option Extensions :=
  record? ["alternative_names", "keypad", "ignore"] true (withDefault .empty names?)
    (withDefault .empty names?) (withDefault [] strings?) .mk

/-- The configuration that the root table of a document gives. -/
def ofMembers? (root : Members) : Option Config :=
  record? ["inputs", "output", "overrides"] true (withDefault .none inputs?)
    (withDefault ⟨none, none, none⟩ output?) (withDefault .none extensions?) .mk
    (.table .header root)

/-- The configuration of a TOML document. -/
def ofToml? (text : String) : Option Config := (Toml.parse? text).bind ofMembers?

/-- The built-in overrides with the configured entries put over them, and the reports on replaced
entries. -/
def overrides (c : Config) : Overrides × List Event :=
  if c.extensions.isEmpty then (.builtin, []) else Overrides.builtin.extend c.extensions

/-- That there are no configured entries makes no difference. -/
theorem overrides_eq_extend (c : Config) :
    c.overrides = Overrides.builtin.extend c.extensions := by
  unfold overrides
  split
  · next h => exact (Overrides.extend_of_isEmpty _ h).symm
  · rfl

end Config

end KeyDispatch
