import KeyDispatch.Toml.Value

/-!
# Documents of TOML

A document is a run of lines: assignments, headers of tables and of array elements, comments and
blank lines. `parse?` answers the members of the root table, or nothing if the text is no
document.
-/

namespace KeyDispatch.Toml

/-- Applies `f` to the members of the table at a path, entering the last element of an array of
tables and opening the tables that are missing on the way. -/
def within (f : Members → Option Members) : List String → Members → Option Members
  | [], members => f members
  | part :: rest, members =>
    alter part (fun
      | none => (within f rest []).map (.table .implied)
      | some (.table .inBraces _) => none
      | some (.table origin inner) => (within f rest inner).map (.table origin)
      | some (.tables elements) => (alterLast (within f rest) elements).map .tables
      | some _ => none) members

/-- The members with a table opened by its header. A table that a longer header implied is taken
over. -/
def openTable (key : String) (members : Members) : Option Members :=
  alter key (fun
    | none => some (.table .header [])
    | some (.table .implied inner) => some (.table .header inner)
    | some _ => none) members

/-- The members with one more element in an array of tables. -/
def openElement (key : String) (members : Members) : Option Members :=
  alter key (fun
    | none => some (.tables [[]])
    | some (.tables elements) => some (.tables (elements ++ [[]]))
    | some _ => none) members

/-- A document being read: its root table and the path of the table that assignments go to. -/
structure Reading where
  root : Members
  current : List String

/-- The header of a table or of an array element, up to the end of its line. -/
def header? (r : Reading) (cs : List Char) : Option (Reading × List Char) :=
  match cs with
  | '[' :: '[' :: cs => do
    let (path, rest) ← key? cs
    match rest with
    | ']' :: ']' :: rest => do
      let last ← path.getLast?
      let root ← within (openElement last) path.dropLast r.root
      let rest ← lineEnd? rest
      return (⟨root, path⟩, rest)
    | _ => none
  | '[' :: cs => do
    let (path, rest) ← key? cs
    match rest with
    | ']' :: rest => do
      let last ← path.getLast?
      let root ← within (openTable last) path.dropLast r.root
      let rest ← lineEnd? rest
      return (⟨root, path⟩, rest)
    | _ => none
  | _ => none

/-- An assignment, up to the end of its line. -/
def assignment? (r : Reading) (cs : List Char) : Option (Reading × List Char) := do
  let ((key, v), rest) ← member value? cs
  let root ← within (assign v key) r.current r.root
  let rest ← lineEnd? rest
  return (⟨root, r.current⟩, rest)

/-- The lines of a document, of which there are fewer than `n`. -/
def readLines : Nat → Reading → List Char → Option Reading
  | 0, _, _ => none
  | n + 1, r, cs =>
    if cs.isEmpty then some r
    else
      match lineEnd? cs with
      | some rest => readLines n r rest
      | none =>
        let cs := skipSpace cs
        match if cs.head? = some '[' then header? r cs else assignment? r cs with
        | some (r, rest) => readLines n r rest
        | none => none

/-- The text without a byte order mark at its start. -/
def dropMark : List Char → List Char
  | '\ufeff' :: cs => cs
  | cs => cs

/-- The members of a document's root table. -/
def parse? (text : String) : Option Members :=
  let cs := dropMark text.toList
  (readLines (cs.length + 1) ⟨[], []⟩ cs).map (·.root)

end KeyDispatch.Toml
