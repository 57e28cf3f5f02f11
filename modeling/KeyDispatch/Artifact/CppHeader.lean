import KeyDispatch.Artifact.Lines
import KeyDispatch.DecisionTable

/-!
# The dispatch as a C++ header

`CppHeader.render` writes a decision table as a header with one inline function that switches
first on the text and then on the key. The function sees a text in UTF-16, so only characters of
one unit have a case. A platform-dependent key is decided by the preprocessor.
-/

namespace KeyDispatch

/-- What a header leaves open: the name of its function and its include guard. -/
structure CppHeader where
  functionName : String
  includeGuard : String
deriving DecidableEq

namespace CppHeader

/-- The header with the standard names. -/
def standard : CppHeader := ⟨"orv_qt_key_to_keysym", "OPENRV_QTKEY_TO_XKEYSYM_H"⟩

/-- Opening comment. -/
def banner : List String :=
  ["/* Auto-generated file from keysymgen",
   "   All changes will be overwritten.",
   "",
   "   This file provides convenience functions to map a Qt::Key to a X11 keysym value",
   "   as used by the VNC protocol.",
   "",
   "   See also the keysymdef.h/XF86keysym.h files of the X server for the keysym values. */",
   ""]

/-- Include guard and includes. -/
def includes (guardName : String) : List String :=
  ["#ifndef " ++ guardName,
   "#define " ++ guardName,
   "",
   "#include <QtCore/qnamespace.h>",
   "#include <QtCore/qstring.h>",
   ""]

/-- Head of the function, down to the switch on the text. -/
def functionHead (name : String) : List String :=
  ["inline int " ++ name ++ "(int qtKey, int qtModifiers, const QString& text)",
   "\x7b",
   "  if (text.size() == 1) \x7b",
   "    switch (text.unicode()[0].unicode()) \x7b"]

/-- The position is that of a character of one UTF-16 unit. -/
def isUnit (position : UInt32) : Bool := position ≤ 0xFFFF

/-- Case of a character. -/
def textCase (position : UInt32) (keysym : Keysym) : String :=
  "      case " ++ Text.hexText 4 position.toNat ++ ": return " ++ keysym.text ++ ";"

/-- End of the switch on the text. -/
def textEnd : List String :=
  ["      default: break;",
   "    \x7d",
   "  \x7d"]

/-- Preprocessor condition that holds on a platform. -/
def platformCondition : Platform → String
  | .macOS => "defined(Q_OS_OSX)"
  | .other => "!defined(Q_OS_OSX)"

/-- Choice by a modifier. -/
def modifierChoice (m : Modifier) (set unset : Keysym) : String :=
  "if (qtModifiers & " ++ m.enumerator ++ ") \x7b return " ++ set.text ++ "; \x7d else \x7b return "
    ++ unset.text ++ "; \x7d"

/-- Indentation of a statement inside a preprocessor block. -/
def blockIndent : String := "      "

/-- Preprocessor block that takes one of two statements by platform. -/
def platformBlock (platform : Platform) (exchanged normal : String) : String :=
  "#if " ++ platformCondition platform ++ "\n" ++ blockIndent ++ exchanged ++ "\n#else\n"
    ++ blockIndent ++ normal ++ "\n#endif"

/-- Statement that returns a resolution's value. -/
def statement : Resolution → String
  | .fixed keysym => "return " ++ keysym.text ++ ";"
  | .shift lower upper => modifierChoice .shift upper lower
  | .keypad plain onKeypad => modifierChoice .keypad onKeypad plain
  | .swapped normal exchanged platform =>
    "\n" ++ platformBlock platform (statement exchanged) (statement normal) ++ "\n"

/-- Case of a key. -/
def keyCase (e : Entry) : List String :=
  match e.resolution with
  | .swapped normal exchanged platform =>
    ["    case Qt::Key_" ++ e.name ++ ":",
     platformBlock platform (statement exchanged) (statement normal)]
  | other => ["    case Qt::Key_" ++ e.name ++ ": " ++ statement other]

/-- The switch on the key, and the end of the header. -/
def keySwitch (entries : List Entry) : List String :=
  ["  switch (qtKey) \x7b"]
    ++ entries.flatMap keyCase
    ++ ["    default: return 0;", "  \x7d", "\x7d", "#endif"]

/-- Lines of the header for a table. -/
def lines (h : CppHeader) (t : DecisionTable) : List String :=
  banner
    ++ includes h.includeGuard
    ++ functionHead h.functionName
    ++ (t.textCases.toList.filter fun p => isUnit p.1).map (fun p => textCase p.1 p.2)
    ++ textEnd
    ++ keySwitch t.entries.toList

/-- The header for a table. -/
def render (h : CppHeader) (t : DecisionTable) : String := Artifact.textOfLines (h.lines t)

end CppHeader

end KeyDispatch
