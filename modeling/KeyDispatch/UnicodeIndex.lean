import KeyDispatch.SortedMap

/-!
# Index of Unicode positions

A `UnicodeIndex` maps a Unicode position to the name of the symbol that declares itself equivalent
to the character there. The first declaration of a position stays.
-/

namespace KeyDispatch

/-- Symbol names by Unicode position. -/
structure UnicodeIndex where
  byPosition : SortedMap UInt32 String
deriving DecidableEq, Inhabited

namespace UnicodeIndex

/-- The index without positions. -/
def empty : UnicodeIndex := ⟨.empty⟩

/-- The name that holds a position. -/
def get? (index : UnicodeIndex) (position : UInt32) : Option String :=
  index.byPosition.get? position

/-- Declares a position, and says whether it was free. -/
def insert (index : UnicodeIndex) (position : UInt32) (name : String) : Bool × UnicodeIndex :=
  if index.byPosition.contains position then (false, index)
  else (true, ⟨index.byPosition.insert position name⟩)

/-- Positions with their names, ascending. -/
def toList (index : UnicodeIndex) : List (UInt32 × String) := index.byPosition.toList

/-- Number of positions. -/
def size (index : UnicodeIndex) : Nat := index.byPosition.size

/-- No position is held. -/
def isEmpty (index : UnicodeIndex) : Bool := index.byPosition.isEmpty

end UnicodeIndex

end KeyDispatch
