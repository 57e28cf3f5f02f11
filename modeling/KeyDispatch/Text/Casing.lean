import KeyDispatch.Text.Casing.Table

/-!
# Lowercase forms

`lowercase` is the full lowercase form of a name: each character goes to its lowercase form, a
dotted capital I goes to two characters, and a capital sigma at the end of a word goes to the
final form. Two names are spellings of one another when their lowercase forms agree.
-/

namespace KeyDispatch.Text

/-- The code point lies in one of the runs. -/
def inRuns (runs : List (Nat × Nat)) (n : Nat) : Bool := runs.any fun r => r.1 ≤ n && n ≤ r.2

/-- Letters, for the purpose of finding the end of a word. -/
def isCased (c : Char) : Bool :=
  if c.toNat < 128 then c.isAlpha else inRuns casedRuns c.toNat

/-- Characters that are skipped on the way to the next letter. -/
def isSkipped (c : Char) : Bool :=
  if c.toNat < 128 then c ∈ ['\'', '.', ':', '^', '\x60'] else inRuns skippedRuns c.toNat

/-- The first character that is not skipped is a letter. -/
def meetsCased (cs : List Char) : Bool := (cs.dropWhile isSkipped).head?.any isCased

/-- Lowercase form of one character, a capital sigma being inside a word. -/
def lowerChar (c : Char) : List Char :=
  if c.toNat < 128 then [c.toLower]
  else if c.toNat = 0x130 then ['i', '\u0307']
  else
    let n := c.toNat
    match lowercaseRuns.find? fun r => r.first ≤ n && n ≤ r.last && (n - r.first) % r.step == 0 with
    | some r => [Char.ofNat (n + r.shift).toNat]
    | none => [c]

/-- Lowercase form of the rest of a name, with the reverse of what stands before it. -/
def lowerFrom (before : List Char) : List Char → List Char
  | [] => []
  | c :: cs =>
    if c = 'Σ' then
      (if meetsCased before && !meetsCased cs then 'ς' else 'σ') :: lowerFrom (c :: before) cs
    else lowerChar c ++ lowerFrom (c :: before) cs

/-- Full lowercase form of a name. -/
def lowercase (name : String) : String := String.ofList (lowerFrom [] name.toList)

/-- Uppercase form of a name of word characters, which are all ASCII. -/
def uppercase (name : String) : String := String.ofList (name.toList.map Char.toUpper)

/-- On ASCII the lowercase form goes character by character. -/
theorem lowerFrom_ascii (before : List Char) {cs : List Char} (h : ∀ c ∈ cs, c.toNat < 128) :
    lowerFrom before cs = cs.map Char.toLower := by
  induction cs generalizing before with
  | nil => rfl
  | cons c cs ih =>
    have hc : c.toNat < 128 := h c (by simp)
    have hs : c ≠ 'Σ' := by rintro rfl; exact absurd hc (by decide)
    simp [lowerFrom, hs, lowerChar, hc, ih _ fun d hd => h d (by simp [hd])]

end KeyDispatch.Text
