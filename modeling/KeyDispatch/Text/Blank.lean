/-!
# Blank and word characters

`isBlank` is the Unicode property White_Space and `isWord` is the alphabet of names. `trim` cuts the
blanks at both ends of a line.
-/

namespace KeyDispatch.Text

/-- The characters with the property White_Space. -/
def isBlank (c : Char) : Bool :=
  let n := c.toNat
  (9 ≤ n && n ≤ 13) || n == 0x20 || n == 0x85 || n == 0xA0 || n == 0x1680
    || (0x2000 ≤ n && n ≤ 0x200A) || n == 0x2028 || n == 0x2029 || n == 0x202F
    || n == 0x205F || n == 0x3000

/-- The characters of a name: ASCII letters, ASCII digits and the underscore. -/
def isWord (c : Char) : Bool := c.isAlphanum || c == '_'

/-- The text after its leading blanks. -/
def trimStart (cs : List Char) : List Char := cs.dropWhile isBlank

/-- The text before its trailing blanks. -/
def trimEnd (cs : List Char) : List Char := (cs.reverse.dropWhile isBlank).reverse

/-- The text between its leading and trailing blanks. -/
def trim (cs : List Char) : List Char := trimEnd (trimStart cs)

/-- A run of blanks holds nothing else. -/
theorem dropWhile_blanks {ws : List Char} (h : ∀ c ∈ ws, isBlank c) :
    ws.dropWhile isBlank = [] := by
  induction ws with
  | nil => rfl
  | cons c ws ih =>
    have hc : isBlank c := h c (by simp)
    simp [hc, ih fun d hd => h d (by simp [hd])]

/-- Blanks added at the end are cut off again. -/
theorem trimEnd_append (cs : List Char) {ws : List Char} (h : ∀ c ∈ ws, isBlank c) :
    trimEnd (cs ++ ws) = trimEnd cs := by
  have hr : ws.reverse.dropWhile isBlank = [] :=
    dropWhile_blanks fun c hc => h c (List.mem_reverse.1 hc)
  simp [trimEnd, List.dropWhile_append, hr]

end KeyDispatch.Text
