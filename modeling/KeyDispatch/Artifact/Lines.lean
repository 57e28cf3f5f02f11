/-!
# Text of lines
-/

namespace KeyDispatch.Artifact

/-- The text of lines, each ended by a line feed. -/
def textOfLines : List String → String
  | [] => ""
  | line :: rest => line ++ "\n" ++ textOfLines rest

/-- The text of two runs of lines is the text of one behind that of the other. -/
theorem textOfLines_append (a b : List String) :
    textOfLines (a ++ b) = textOfLines a ++ textOfLines b := by
  induction a with
  | nil => simp [textOfLines]
  | cons line a ih => simp [textOfLines, ih, String.append_assoc]

end KeyDispatch.Artifact
