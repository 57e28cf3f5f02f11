import KeyDispatch.CaseIndex
import KeyDispatch.Definition
import KeyDispatch.Event
import KeyDispatch.UnicodeIndex

/-!
# Primary symbols

The primary header defines keysyms one a line. A comment of the form `U+0041 NAME` makes a symbol
the equivalent of a character, and a comment in parentheses makes it deprecated. `PrimaryTable`
accepts, in file order, every symbol that is not deprecated and whose code and name no accepted
symbol has; its codes, indices and tallies follow the accepted symbols.
-/

namespace KeyDispatch

/-- The character that a symbol corresponds to. -/
structure UnicodeEquivalent where
  position : UInt32
  name : String
deriving DecidableEq

/-- A symbol that the primary header defines. -/
structure PrimarySymbol where
  name : String
  code : Keysym
  unicode : Option UnicodeEquivalent
  deprecated : Bool
deriving DecidableEq

namespace PrimarySymbol

/-- The start of a line that defines a primary symbol. -/
def marker : List Char := "#define XK_".toList

/-- A comment `U+`, four to six digits in upper case, one space, and the character's name. -/
def unicodeOf? (comment : List Char) : Option UnicodeEquivalent := do
  let rest ← strip? ['U', '+'] comment
  let digits := rest.takeWhile Text.isUpperHexDigit
  let name ← strip? [' '] (rest.dropWhile Text.isUpperHexDigit)
  guard (4 ≤ digits.length ∧ digits.length ≤ 6)
  let position ← Text.readWord digits
  return ⟨position, String.ofList (Text.trim name)⟩

/-- A comment in parentheses. -/
def isParenthesised (comment : List Char) : Bool :=
  comment.head? == some '(' && comment.getLast? == some ')'

/-- The symbol of a definition and its code. -/
def ofDefine (d : Define) (code : UInt32) : PrimarySymbol :=
  match d.comment.map Text.trim with
  | none => ⟨String.ofList d.name, ⟨code⟩, none, false⟩
  | some comment =>
    match unicodeOf? comment with
    | some unicode => ⟨String.ofList d.name, ⟨code⟩, some unicode, false⟩
    | none => ⟨String.ofList d.name, ⟨code⟩, none, isParenthesised comment⟩

/-- The symbol that a line of the primary header defines, if any. -/
def ofLine (l : Numbered (List Char)) : Except HeaderError (Option PrimarySymbol) :=
  match Define.ofLine .keysymdef marker Text.isLowerHexDigit l with
  | .error e => .error e
  | .ok none => .ok none
  | .ok (some (d, code)) => .ok (some (ofDefine d code))

section OfLine

variable {l : Numbered (List Char)}

theorem ofLine_eq_ok_some_iff {s : PrimarySymbol} :
    ofLine l = .ok (some s) ↔
      ∃ d code, Define.ofLine .keysymdef marker Text.isLowerHexDigit l = .ok (some (d, code)) ∧
        s = ofDefine d code := by
  constructor
  · intro h
    unfold ofLine at h
    split at h
    · cases h
    · cases h
    · next d code hdefine => exact ⟨d, code, hdefine, (Option.some.inj (Except.ok.inj h)).symm⟩
  · rintro ⟨d, code, hdefine, rfl⟩
    simp only [ofLine, hdefine]

theorem ofLine_eq_error_iff {e : HeaderError} :
    ofLine l = .error e ↔
      Define.ofLine .keysymdef marker Text.isLowerHexDigit l = .error e := by
  unfold ofLine
  split
  · next h => rw [h, Except.error.injEq, Except.error.injEq]
  · next h =>
    rw [h]
    exact Iff.intro nofun nofun
  · next h =>
    rw [h]
    exact Iff.intro nofun nofun

end OfLine

end PrimarySymbol

/-- Numbers of definitions that were dropped, by the first reason that applied: the code was
taken, the symbol is deprecated, the name was taken. -/
structure Tally where
  aliases : Nat
  deprecated : Nat
  duplicateNames : Nat
deriving DecidableEq, Inhabited

/-- The accepted symbols in file order and the set of their codes, with their indices and the tally
of dropped definitions. -/
structure PrimaryTable where
  symbols : List PrimarySymbol
  codes : SortedMap UInt32 Unit
  caseIndex : CaseIndex
  unicodeIndex : UnicodeIndex
  tally : Tally
deriving DecidableEq, Inhabited

namespace PrimaryTable

/-- The table without symbols. -/
def empty : PrimaryTable := ⟨[], .empty, .empty, .empty, ⟨0, 0, 0⟩⟩

/-- The accepted symbol of a name. -/
def get? (t : PrimaryTable) (name : String) : Option PrimarySymbol :=
  t.symbols.find? fun s => s.name == name

/-- The code of the accepted symbol of a name. -/
def code? (t : PrimaryTable) (name : String) : Option Keysym := (t.get? name).map (·.code)

/-- A symbol of the name is accepted. -/
def contains (t : PrimaryTable) (name : String) : Bool := (t.get? name).isSome

/-- A symbol with the code is accepted. -/
def hasCode (t : PrimaryTable) (code : Keysym) : Bool := t.codes.contains code.code

/-- Number of accepted symbols. -/
def size (t : PrimaryTable) : Nat := t.symbols.length

/-- The Unicode index with the position of an accepted symbol, and a report if it was taken. -/
def declare (index : UnicodeIndex) (s : PrimarySymbol) : UnicodeIndex × List Event :=
  match s.unicode with
  | none => (index, [])
  | some unicode =>
    match index.get? unicode.position with
    | none => ((index.insert unicode.position s.name).2, [])
    | some holder => (index, [.positionTaken unicode.position holder s.name])

/-- The table with one more accepted symbol. -/
def accept (t : PrimaryTable) (s : PrimarySymbol) : PrimaryTable × List Event :=
  let (unicodeIndex, events) := declare t.unicodeIndex s
  ({ t with
      symbols := t.symbols ++ [s]
      codes := t.codes.insert s.code.code ()
      caseIndex := t.caseIndex.record s.name
      unicodeIndex := unicodeIndex }, events)

/-- The table after the next definition of the file, which is accepted or counted. -/
def offer (t : PrimaryTable) (d : Numbered PrimarySymbol) : PrimaryTable × List Event :=
  if t.hasCode d.content.code then
    ({ t with tally := { t.tally with aliases := t.tally.aliases + 1 } }, [])
  else if d.content.deprecated then
    ({ t with tally := { t.tally with deprecated := t.tally.deprecated + 1 } }, [])
  else if t.contains d.content.name then
    ({ t with tally := { t.tally with duplicateNames := t.tally.duplicateNames + 1 } },
      [.redefined d.line d.content.name])
  else t.accept d.content

/-- The table after more definitions of the file. -/
def offerAll (t : PrimaryTable) : List (Numbered PrimarySymbol) → PrimaryTable × List Event
  | [] => (t, [])
  | d :: ds =>
    let (t', events) := t.offer d
    let (t'', later) := t'.offerAll ds
    (t'', events ++ later)

/-- The report on a finished table. -/
def summary (t : PrimaryTable) : Event :=
  .primarySummary t.size t.tally.aliases t.tally.deprecated t.unicodeIndex.size t.caseIndex.size

/-- The definitions of a text, up to its first error. -/
def definitions (source : String) : Scan PrimarySymbol :=
  scan PrimarySymbol.ofLine (numberedLines source)

/-- The table of the full text of the primary header. -/
def ofText (source : String) : Logged HeaderError PrimaryTable :=
  let found := definitions source
  let (t, events) := empty.offerAll found.found
  match found.failure with
  | some e => ⟨events, .error e⟩
  | none => ⟨events ++ [t.summary], .ok t⟩

end PrimaryTable

end KeyDispatch
