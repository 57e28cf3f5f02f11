import KeyDispatch.Artifact.Lines
import KeyDispatch.DecisionTable

/-!
# The dispatch as a Rust module

`RustModule.render` writes a decision table as a self-contained Rust module: constants for the
modifier masks and for the key codes, and one function that matches first on the text and then on
the key code. The order is that of the table.
-/

namespace KeyDispatch

/-- What a Rust module leaves open: the name of its function. -/
structure RustModule where
  functionName : String
deriving DecidableEq

namespace RustModule

/-- The module with the standard function name. -/
def standard : RustModule := ⟨"qt_key_to_keysym"⟩

/-- Opening comment. -/
def banner : List String :=
  ["// @generated by keysymgen. All changes will be overwritten.",
   "//",
   "// Maps a Qt key event to the X11 keysym value used by the VNC (RFB) protocol.",
   "// See keysymdef.h and XF86keysym.h of the X server for the keysym values.",
   ""]

/-- Constant of a modifier's mask. -/
def modifierConstant (m : Modifier) : List String :=
  ["/// `" ++ m.enumerator ++ "`",
   "pub const " ++ m.constant ++ ": u32 = " ++ Text.hexText 8 m.mask.toNat ++ ";"]

/-- Constant for a key event without a keysym. -/
def noKeysymConstant : List String :=
  ["/// Returned when no keysym is known for a key event.",
   "pub const NO_KEYSYM: u32 = " ++ Keysym.none.text ++ ";",
   ""]

/-- Constant of a key's code. -/
def keyConstant (e : Entry) : String :=
  "    pub const Key_" ++ e.name ++ ": u32 = " ++ Text.hexText 1 e.toolkitCode.toNat ++ ";"

/-- Constants of all keys' codes. -/
def keyConstants (entries : List Entry) : List String :=
  ["/// `Qt::Key` values that have a keysym mapping.",
   "#[allow(non_upper_case_globals, dead_code)]",
   "pub mod qt_key \x7b"]
    ++ entries.map keyConstant
    ++ ["\x7d", ""]

/-- Head of the function, down to the match on the text. -/
def functionHead (name : String) : List String :=
  ["/// Map a Qt key event to an X11 keysym.",
   "///",
   "/// A `text` of exactly one character that has a keysym of its own takes",
   "/// precedence over `qt_key`.",
   "#[allow(unreachable_patterns, unused_variables)]",
   "pub fn " ++ name ++ "(qt_key: u32, qt_modifiers: u32, text: &str) -> u32 \x7b",
   "    let mut chars = text.chars();",
   "    if let (Some(c), None) = (chars.next(), chars.next()) \x7b",
   "        match u32::from(c) \x7b"]

/-- Arm of a character. -/
def textArm (position : UInt32) (keysym : Keysym) : String :=
  "            " ++ Text.hexText 4 position.toNat ++ " => return " ++ keysym.text ++ ","

/-- End of the match on the text. -/
def textEnd : List String :=
  ["            _ => \x7b\x7d",
   "        \x7d",
   "    \x7d"]

/-- Condition that holds on a platform. -/
def platformCondition : Platform → String
  | .macOS => "cfg!(target_os = \"macos\")"
  | .other => "cfg!(not(target_os = \"macos\"))"

/-- Choice by a modifier. -/
def modifierChoice (m : Modifier) (set unset : Keysym) : String :=
  "if qt_modifiers & " ++ m.constant ++ " != 0 \x7b " ++ set.text ++ " \x7d else \x7b "
    ++ unset.text ++ " \x7d"

/-- Expression of a resolution's value. -/
def expression : Resolution → String
  | .fixed keysym => keysym.text
  | .shift lower upper => modifierChoice .shift upper lower
  | .keypad plain onKeypad => modifierChoice .keypad onKeypad plain
  | .swapped normal exchanged platform =>
    "if " ++ platformCondition platform ++ " \x7b " ++ expression exchanged ++ " \x7d else \x7b "
      ++ expression normal ++ " \x7d"

/-- Arm of a key. -/
def keyArm (e : Entry) : List String :=
  match e.resolution with
  | .fixed keysym => ["        qt_key::Key_" ++ e.name ++ " => " ++ keysym.text ++ ","]
  | other =>
    ["        qt_key::Key_" ++ e.name ++ " => \x7b",
     "            " ++ expression other,
     "        \x7d"]

/-- The match on the key, and the end of the function. -/
def keyMatch (entries : List Entry) : List String :=
  ["    match qt_key \x7b"]
    ++ entries.flatMap keyArm
    ++ ["        _ => NO_KEYSYM,", "    \x7d", "\x7d"]

/-- Lines of the module for a table. -/
def lines (m : RustModule) (t : DecisionTable) : List String :=
  banner
    ++ modifierConstant .shift
    ++ modifierConstant .keypad
    ++ noKeysymConstant
    ++ keyConstants t.entries.toList
    ++ functionHead m.functionName
    ++ t.textCases.toList.map (fun p => textArm p.1 p.2)
    ++ textEnd
    ++ keyMatch t.entries.toList

/-- The module for a table. -/
def render (m : RustModule) (t : DecisionTable) : String := Artifact.textOfLines (m.lines t)

end RustModule

end KeyDispatch
