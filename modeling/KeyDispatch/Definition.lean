import KeyDispatch.Source
import KeyDispatch.Text.Blank
import KeyDispatch.Text.Line

/-!
# Definition lines

`Define.read?` recognises a line that defines a symbol by a hexadecimal number, and `Define.ofLine`
judges any line of such a header: a definition with its value, an error, or neither. `scan` collects
what the lines of a header define, up to the first error.

Every step of the recognisers is forced by the next character, so no line can be read in two ways.
-/

namespace KeyDispatch

/-- Something on a line of a header, with the number of the line. -/
structure Numbered (α : Type) where
  line : Nat
  content : α

/-- `items` numbered upwards from `n`. -/
def numberFrom {α : Type} (n : Nat) : List α → List (Numbered α)
  | [] => []
  | a :: as => ⟨n, a⟩ :: numberFrom (n + 1) as

/-- The lines of a source text, numbered from one. -/
def numberedLines (source : String) : List (Numbered (List Char)) :=
  numberFrom 1 (Text.lines source.toList)

/-- `cs` without `start` at its front. -/
def strip? : List Char → List Char → Option (List Char)
  | [], cs => some cs
  | _ :: _, [] => none
  | s :: start, c :: cs => if s = c then strip? start cs else none

/-- The longest run of `p` at the front and what follows it; the run must not be empty. -/
def splitRun? (p : Char → Bool) (cs : List Char) : Option (List Char × List Char) :=
  if (cs.takeWhile p).isEmpty then none else some (cs.takeWhile p, cs.dropWhile p)

/-- What stands between `/*` at the front and `*/` at the end. -/
def commentBody? (cs : List Char) : Option (List Char) := do
  let inner ← strip? ['/', '*'] cs
  let body ← strip? ['/', '*'] inner.reverse
  return body.reverse

/-- A line that defines a symbol: its name, the digits of its code, and the body of its comment if
it has one. -/
structure Define where
  name : List Char
  digits : List Char
  comment : Option (List Char)
deriving DecidableEq

namespace Define

/-- The part behind the digits: blank, or a comment between blanks. -/
def readTail? (cs : List Char) : Option (Option (List Char)) :=
  match Text.trim cs with
  | [] => some none
  | rest => (commentBody? rest).map some

/-- A definition line: `marker`, a name, blanks, `0x`, digits, and at most one comment, with blanks
around the comment and at the end. -/
def read? (marker : List Char) (isDigit : Char → Bool) (line : List Char) : Option Define := do
  let rest ← strip? marker line
  let (name, rest) ← splitRun? Text.isWord rest
  let (_, rest) ← splitRun? Text.isBlank rest
  let rest ← strip? ['0', 'x'] rest
  let (digits, rest) ← splitRun? isDigit rest
  let comment ← readTail? rest
  return ⟨name, digits, comment⟩

/-- A line of a header of definitions: an error if it starts with `marker` but is no definition or
has too large a value, the definition and its value, or neither. -/
def ofLine (source : Source) (marker : List Char) (isDigit : Char → Bool)
    (l : Numbered (List Char)) : Except HeaderError (Option (Define × UInt32)) :=
  match read? marker isDigit l.content with
  | none =>
    if marker.isPrefixOf l.content then
      .error (.malformedDefinition source l.line (String.ofList (Text.trim l.content)))
    else .ok none
  | some d =>
    match Text.readWord d.digits with
    | none => .error (.invalidCode source l.line (String.ofList (Text.trim l.content)))
    | some code => .ok (some (d, code))

end Define

/-- What the lines of a header define, up to the first line that is an error. -/
structure Scan (α : Type) where
  found : List (Numbered α)
  failure : Option HeaderError

/-- Reads lines in order and stops at the first error. -/
def scan {α : Type} (read : Numbered (List Char) → Except HeaderError (Option α)) :
    List (Numbered (List Char)) → Scan α
  | [] => ⟨[], none⟩
  | l :: ls =>
    match read l with
    | .error e => ⟨[], some e⟩
    | .ok none => scan read ls
    | .ok (some a) => ⟨⟨l.line, a⟩ :: (scan read ls).found, (scan read ls).failure⟩

/-- Numbering leaves what it numbers as it is. -/
theorem map_content_numberFrom {α : Type} (n : Nat) (as : List α) :
    (numberFrom n as).map (·.content) = as := by
  induction as generalizing n with
  | nil => rfl
  | cons a as ih => simp [numberFrom, ih]

/-- What stands at the front can be stripped off. -/
theorem strip?_append (start cs : List Char) : strip? start (start ++ cs) = some cs := by
  induction start with
  | nil => rfl
  | cons s start ih => simp [strip?, ih]

/-- Stripping succeeds exactly on what starts that way, and gives the rest. -/
theorem strip?_eq_some_iff {start cs rest : List Char} :
    strip? start cs = some rest ↔ cs = start ++ rest := by
  constructor
  · intro h
    induction start generalizing cs with
    | nil => simpa [strip?] using h
    | cons s start ih =>
      cases cs with
      | nil => simp [strip?] at h
      | cons c cs =>
        by_cases e : s = c
        · subst e
          simp only [strip?, if_true] at h
          simp [ih h]
        · simp [strip?, e] at h
  · rintro rfl
    exact strip?_append start rest

/-- A split loses nothing, and its run is not empty and holds nothing else. -/
theorem splitRun?_eq_some {p : Char → Bool} {cs run rest : List Char}
    (h : splitRun? p cs = some (run, rest)) : cs = run ++ rest ∧ run ≠ [] ∧ ∀ c ∈ run, p c := by
  unfold splitRun? at h
  split at h
  · simp at h
  · rename_i hne
    obtain ⟨rfl, rfl⟩ := Prod.mk.inj (Option.some.inj h)
    refine ⟨(List.takeWhile_append_dropWhile).symm, by simpa using hne, fun c hc => ?_⟩
    have hall := List.all_takeWhile (p := p) (l := cs)
    rw [List.all_eq_true] at hall
    exact hall c hc

end KeyDispatch
