/-!
# Lines of a text

A line feed ends a line, together with one carriage return right before it. Text behind the last
line feed is a line of its own and keeps its carriage returns; an empty remainder is no line.
-/

namespace KeyDispatch.Text

/-- `dropReturn acc` takes one carriage return off the end of a line that is held in reverse. -/
def dropReturn : List Char → List Char
  | [] => []
  | c :: acc => if c = '\r' then acc else c :: acc

/-- The lines of a text whose first line began with the reverse of `acc`. -/
def linesFrom (acc : List Char) : List Char → List (List Char)
  | [] => if acc.isEmpty then [] else [acc.reverse]
  | c :: cs =>
    if c = '\n' then (dropReturn acc).reverse :: linesFrom [] cs else linesFrom (c :: acc) cs

/-- The lines of a text, first to last. -/
def lines (cs : List Char) : List (List Char) := linesFrom [] cs

/-- What stands before a line feed is a line, less one carriage return at its end. -/
theorem linesFrom_line {line : List Char} (h : '\n' ∉ line) (acc cs : List Char) :
    linesFrom acc (line ++ '\n' :: cs)
      = (dropReturn (line.reverse ++ acc)).reverse :: linesFrom [] cs := by
  induction line generalizing acc with
  | nil => simp [linesFrom]
  | cons c line ih =>
    have hc : c ≠ '\n' := fun e => h (by simp [e])
    have hl : '\n' ∉ line := fun hm => h (List.mem_cons_of_mem _ hm)
    simp [linesFrom, hc, ih hl (c :: acc)]

/-- What stands behind the last line feed is a line as it is, unless it is empty. -/
theorem linesFrom_last {line : List Char} (h : '\n' ∉ line) (acc : List Char) :
    linesFrom acc line = if acc.isEmpty && line.isEmpty then [] else [acc.reverse ++ line] := by
  induction line generalizing acc with
  | nil => simp [linesFrom]
  | cons c line ih =>
    have hc : c ≠ '\n' := fun e => h (by simp [e])
    have hl : '\n' ∉ line := fun hm => h (List.mem_cons_of_mem _ hm)
    simp [linesFrom, hc, ih hl (c :: acc)]

end KeyDispatch.Text
