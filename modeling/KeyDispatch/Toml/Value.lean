import KeyDispatch.Toml.Datetime
import KeyDispatch.Toml.Number

/-!
# Values of TOML

`value?` reads one value. Tables remember how they came about, because that decides whether a
later line may add to them; `assign` puts a value under a dotted key and refuses to touch a
finished table.
-/

namespace KeyDispatch.Toml

/-- How a table came about: written in braces, opened by a header of its own, passed through by the
header of a table inside it, or opened by a dotted key. -/
inductive TableOrigin where
  | inBraces
  | header
  | implied
  | dotted
deriving DecidableEq

/-- A value. `tables` is an array of tables that headers opened one by one, each given by its
members. -/
inductive Value where
  | text (s : String)
  | integer (n : Int)
  | float
  | boolean (b : Bool)
  | datetime (written : String)
  | array (items : List Value)
  | table (origin : TableOrigin) (members : List (String × Value))
  | tables (elements : List (List (String × Value)))

/-- Members of a table in the order of their first mention. -/
abbrev Members := List (String × Value)

/-- The members with the value of one key made anew from what it was. -/
def alter (key : String) (f : Option Value → Option Value) : Members → Option Members
  | [] => (f none).map fun v => [(key, v)]
  | (k, v) :: rest =>
    if k = key then (f (some v)).map fun v => (k, v) :: rest
    else (alter key f rest).map ((k, v) :: ·)

/-- The elements with the last one changed. -/
def alterLast {α : Type} (f : α → Option α) : List α → Option (List α)
  | [] => none
  | [a] => (f a).map fun a => [a]
  | a :: rest => (alterLast f rest).map (a :: ·)

/-- The members with a value under a dotted key. A dotted key passes through tables that dotted keys
or longer headers opened, and ends in one that a dotted key opened; no key is set twice. -/
def assign (v : Value) : List String → Members → Option Members
  | [], _ => none
  | [key], members =>
    alter key (fun
      | none => some v
      | some _ => none) members
  | part :: next :: rest, members =>
    alter part (fun
      | none => (assign v (next :: rest) []).map (.table .dotted)
      | some (.table .dotted inner) => (assign v (next :: rest) inner).map (.table .dotted)
      | some (.table .implied inner) =>
        if rest.isEmpty then none
        else (assign v (next :: rest) inner).map (.table .implied)
      | some (.tables elements) =>
        if rest.isEmpty then none
        else (alterLast (assign v (next :: rest)) elements).map .tables
      | some _ => none) members

/-- A list of items between separators, up to a closing character. `item` reads an item and what may
follow it before the separator; with `trailing`, a separator may stand before the closing character.
-/
def items? {α : Type} (item : Reader α) (skip : List Char → Option (List Char)) (trailing : Bool)
    (closing : Char) : Nat → List Char → Option (List α × List Char)
  | 0, _ => none
  | n + 1, cs => do
    let (a, rest) ← item cs
    match rest with
    | [] => none
    | c :: rest =>
      if c = closing then return ([a], rest)
      else if c = ',' then do
        let next ← skip rest
        if trailing && next.head? == some closing then return ([a], next.tail)
        else do
          let (as, rest) ← items? item skip trailing closing n next
          return (a :: as, rest)
      else none

/-- One of the two truth values. -/
def boolean? (cs : List Char) : Option (Bool × List Char) :=
  match cs with
  | 't' :: 'r' :: 'u' :: 'e' :: rest => some (true, rest)
  | 'f' :: 'a' :: 'l' :: 's' :: 'e' :: rest => some (false, rest)
  | _ => none

/-- A value that holds no others. -/
def scalarValue? (cs : List Char) : Option (Value × List Char) :=
  match cs.head? with
  | none => none
  | some c =>
    if c = '"' ∨ c = '\'' then (string? cs).map fun p => (.text p.1, p.2)
    else if c = 't' ∨ c = 'f' then (boolean? cs).map fun p => (.boolean p.1, p.2)
    else if startsDate cs || startsTime cs then
      (datetime? cs).map fun p => (.datetime p.1, p.2)
    else
      (number? cs).map fun p =>
        (match p.1 with
          | .integer n => .integer n
          | .float => .float, p.2)

/-- A value behind blanks, line ends and comments, and with those behind it too. -/
def arrayItem (value : Reader Value) : Reader Value := fun cs => do
  let cs ← skipTrivia false cs
  let (v, rest) ← value cs
  let rest ← skipTrivia false rest
  return (v, rest)

/-- A dotted key and its value, with the blanks around them. -/
def member (value : Reader Value) : Reader (List String × Value) := fun cs => do
  let (key, rest) ← key? cs
  match rest with
  | '=' :: rest => do
    let (v, rest) ← value (skipSpace rest)
    return ((key, v), skipSpace rest)
  | _ => none

/-- The table of members in the order they are written. -/
def assignAll (members : List (List String × Value)) : Option Members :=
  members.foldlM (fun table m => assign m.2 m.1 table) []

/-- A value with fewer than `depth` levels of arrays and tables in braces. -/
def valueWithin? : Nat → List Char → Option (Value × List Char)
  | 0, _ => none
  | depth + 1, cs =>
    match cs with
    | [] => none
    | c :: rest =>
      if c = '[' then
        if depth = 0 then none
        else do
          let next ← skipTrivia false rest
          if next.head? = some ']' then return (.array [], next.tail)
          else do
            let (vs, rest) ←
              items? (arrayItem (valueWithin? depth)) (skipTrivia false) true ']' rest.length next
            return (.array vs, rest)
      else if c = '\x7b' then
        if depth = 0 then none
        else
          let next := skipSpace rest
          if next.head? = some '\x7d' then return (.table .inBraces [], next.tail)
          else do
            let (ms, rest) ←
              items? (member (valueWithin? depth)) some false '\x7d' rest.length next
            let table ← assignAll ms
            return (.table .inBraces table, rest)
      else scalarValue? cs

/-- A value. -/
def value? : Reader Value := valueWithin? depthLimit

end KeyDispatch.Toml
