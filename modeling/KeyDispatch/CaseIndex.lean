import KeyDispatch.SortedMap
import KeyDispatch.Text.Casing

/-!
# Index of spellings

A `CaseIndex` answers under which spelling a name occurs when case does not count. A lowercase form
that has occurred under two spellings is not unique and stays so.
-/

namespace KeyDispatch

/-- Lowercase forms with one spelling, with that spelling, and lowercase forms with several. -/
structure CaseIndex where
  unique : SortedMap String String
  nonUnique : SortedMap String Unit
deriving DecidableEq, Inhabited

namespace CaseIndex

/-- The index of no names. -/
def empty : CaseIndex := ⟨.empty, .empty⟩

/-- The index with one more name. -/
def record (index : CaseIndex) (name : String) : CaseIndex :=
  let folded := Text.lowercase name
  if index.nonUnique.contains folded then index
  else
    match index.unique.get? folded with
    | none => { index with unique := index.unique.insert folded name }
    | some spelling =>
      if spelling = name then index
      else ⟨index.unique.erase folded, index.nonUnique.insert folded ()⟩

/-- The only spelling of a name. -/
def lookup (index : CaseIndex) (name : String) : Option String :=
  index.unique.get? (Text.lowercase name)

/-- The name has several spellings. -/
def isNonUnique (index : CaseIndex) (name : String) : Bool :=
  index.nonUnique.contains (Text.lowercase name)

/-- Number of lowercase forms with one spelling. -/
def size (index : CaseIndex) : Nat := index.unique.size

/-- No lowercase form has exactly one spelling. -/
def isEmpty (index : CaseIndex) : Bool := index.unique.isEmpty

/-- Number of lowercase forms with several spellings. -/
def nonUniqueSize (index : CaseIndex) : Nat := index.nonUnique.size

end CaseIndex

end KeyDispatch
