import KeyDispatch.Definition
import KeyDispatch.Event
import KeyDispatch.SortedMap

/-!
# Toolkit keys

The toolkit's header lists its key codes as enumerators. Lines of any other shape are passed over,
and a name that occurs again takes the later code.
-/

namespace KeyDispatch

/-- Toolkit key codes by key name. -/
structure ToolkitTable where
  keys : SortedMap String UInt32
deriving DecidableEq, Inhabited

namespace ToolkitTable

/-- The part of an enumerator behind its digits: an optional comma, then nothing or a line comment,
with blanks around the comma. -/
def isTail (cs : List Char) : Bool :=
  let rest := Text.trimStart cs
  let rest := Text.trimStart (if rest.head? == some ',' then rest.tail else rest)
  rest.isEmpty || ['/', '/'].isPrefixOf rest

/-- An enumerator: spaces, `Key_` and a name, an equals sign between blanks, `0x` and digits. -/
def read? (line : List Char) : Option (List Char × List Char) := do
  let rest ← strip? "Key_".toList (line.dropWhile (· == ' '))
  let (name, rest) ← splitRun? Text.isWord rest
  let rest ← strip? ['='] (Text.trimStart rest)
  let rest ← strip? ['0', 'x'] (Text.trimStart rest)
  let (digits, rest) ← splitRun? Text.isHexDigit rest
  guard (isTail rest)
  return (name, digits)

/-- The key that a line of the toolkit's header lists, if any. -/
def ofLine (l : Numbered (List Char)) : Except HeaderError (Option (String × UInt32)) :=
  match read? l.content with
  | none => .ok none
  | some (name, digits) =>
    match Text.readWord digits with
    | none => .error (.invalidCode .toolkit l.line (String.ofList (Text.trim l.content)))
    | some code => .ok (some (String.ofList name, code))

/-- The table of a list of keys, the last code of a name counting. -/
def ofPairs (pairs : List (String × UInt32)) : ToolkitTable := ⟨.ofList pairs⟩

/-- The code of a key. -/
def code? (t : ToolkitTable) (name : String) : Option UInt32 := t.keys.get? name

/-- The keys with their codes, by ascending name. -/
def toList (t : ToolkitTable) : List (String × UInt32) := t.keys.toList

/-- Number of keys. -/
def size (t : ToolkitTable) : Nat := t.keys.size

/-- No key is listed. -/
def isEmpty (t : ToolkitTable) : Bool := t.keys.isEmpty

/-- The keys that a text lists, up to its first error. -/
def definitions (source : String) : Scan (String × UInt32) := scan ofLine (numberedLines source)

/-- The table of the full text of the toolkit's header. -/
def ofText (source : String) : Logged HeaderError ToolkitTable :=
  let found := definitions source
  match found.failure with
  | some e => .fail e
  | none =>
    let t := ofPairs (found.found.map (·.content))
    ⟨[.toolkitSummary t.size], .ok t⟩

theorem ofText_outcome_eq_ok_iff_definitions {source : String} {t : ToolkitTable} :
    (ofText source).outcome = .ok t ↔
      (definitions source).failure = none ∧
        t = ofPairs ((definitions source).found.map (·.content)) := by
  cases hfailure : (definitions source).failure with
  | some e => simp [ofText, hfailure, Logged.fail]
  | none => simp [ofText, hfailure, eq_comm]

end ToolkitTable

end KeyDispatch
