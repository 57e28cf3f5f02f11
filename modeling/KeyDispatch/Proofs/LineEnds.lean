import KeyDispatch.Definition
import Mathlib.Data.List.DropRight

/-!
# The ends of lines

Blanks at the end of a line change nothing for a definition line: neither the name nor the digits
nor the last character of the marker is blank, and the part behind the digits is trimmed
(`Define.read?_append_blank`). So a text may be taken as its lines without blanks at their ends
(`Text.bareLines`), however its lines end. A line feed alone separates lines, and from any lines
without one a text can be made (`Text.bareLines_ofList`).
-/

namespace KeyDispatch

/-! ## Lines without blanks at their ends -/

namespace Text

/-- The lines of a text without blanks at their ends. -/
def bareLines (source : String) : List (List Char) := (lines source.toList).map trimEnd

theorem trimEnd_append_singleton (line : List Char) (c : Char) :
    trimEnd (line ++ [c]) = if isBlank c then trimEnd line else line ++ [c] := by
  unfold trimEnd
  rw [List.reverse_append, List.reverse_singleton, List.singleton_append, List.dropWhile_cons]
  split <;> simp

/-- What no blank at the end changes is not changed by cutting them all off. -/
theorem apply_trimEnd {α : Type} {f : List Char → α}
    (h : ∀ line c, isBlank c = true → f (line ++ [c]) = f line) (line : List Char) :
    f (trimEnd line) = f line := by
  induction line using List.reverseRecOn with
  | nil => rfl
  | append_singleton line c ih =>
    rw [trimEnd_append_singleton]
    split
    · next hc => rw [ih, h line c hc]
    · rfl

/-- What is not blank does not stand where a blank does. -/
theorem some_ne_of_isBlank {c d : Char} (hc : isBlank c = true) (hd : isBlank d = false) :
    some d ≠ some c := by
  intro he
  rw [Option.some.inj he, hc] at hd
  cases hd

theorem trimEnd_trimEnd (line : List Char) : trimEnd (trimEnd line) = trimEnd line := by
  unfold trimEnd
  rw [List.reverse_reverse, List.dropWhile_idempotent]

theorem trimEnd_dropReturn (line : List Char) :
    trimEnd (dropReturn line.reverse).reverse = trimEnd line := by
  have hreturn : isBlank '\r' = true := by decide
  induction line using List.reverseRecOn with
  | nil => rfl
  | append_singleton line c _ =>
    rw [List.reverse_append, List.reverse_singleton, List.singleton_append, dropReturn]
    split
    · rename_i hc
      rw [List.reverse_reverse, hc, trimEnd_append_singleton, if_pos hreturn]
    · rw [List.reverse_cons, List.reverse_reverse]

theorem dropReturn_subset (acc : List Char) : dropReturn acc ⊆ acc := by
  cases acc with
  | nil => exact List.Subset.refl []
  | cons c acc =>
    simp only [dropReturn]
    split
    · exact List.subset_cons_self c acc
    · exact List.Subset.refl _

theorem newline_notMem_of_mem_linesFrom {acc cs line : List Char} (hacc : '\n' ∉ acc)
    (h : line ∈ linesFrom acc cs) : '\n' ∉ line := by
  induction cs generalizing acc with
  | nil =>
    unfold linesFrom at h
    split at h
    · simp at h
    · rw [List.mem_singleton.1 h, List.mem_reverse]
      exact hacc
  | cons c cs ih =>
    unfold linesFrom at h
    split at h
    -- the line ends here, or it goes on with a character that is no line feed
    · rcases List.mem_cons.1 h with rfl | h
      · rw [List.mem_reverse]
        exact fun hmem => hacc (dropReturn_subset acc hmem)
      · exact ih List.not_mem_nil h
    · rename_i hc
      apply ih _ h
      intro hmem
      rcases List.mem_cons.1 hmem with e | hmem
      · exact hc e.symm
      · exact hacc hmem

theorem of_mem_bareLines {source : String} {line : List Char} (h : line ∈ bareLines source) :
    '\n' ∉ line ∧ trimEnd line = line := by
  obtain ⟨l, hl, rfl⟩ := List.mem_map.1 h
  refine ⟨fun hmem => ?_, trimEnd_trimEnd l⟩
  apply newline_notMem_of_mem_linesFrom List.not_mem_nil hl
  rw [trimEnd, List.mem_reverse] at hmem
  exact List.mem_reverse.1 ((List.dropWhile_sublist isBlank).subset hmem)

/-- A text can be made of lines. -/
theorem bareLines_ofList {ls : List (List Char)} (hls : ∀ line ∈ ls, '\n' ∉ line) :
    bareLines (String.ofList (ls.flatMap (· ++ ['\n']))) = ls.map trimEnd := by
  have hlines : lines (ls.flatMap (· ++ ['\n'])) =
      ls.map fun line => (dropReturn line.reverse).reverse := by
    induction ls with
    | nil => rfl
    | cons line ls ih =>
      obtain ⟨hline, hrest⟩ := List.forall_mem_cons.1 hls
      rw [List.flatMap_cons, List.append_assoc, lines, List.singleton_append, linesFrom_line hline,
        List.append_nil, List.map_cons, ← ih hrest, lines]
  rw [bareLines, String.toList_ofList, hlines, List.map_map]
  exact List.map_congr_left fun line _ => trimEnd_dropReturn line

/-! ## A blank at the end of a line -/

theorem toNat_of_isBlank {c : Char} (h : isBlank c = true) : c.toNat ≤ 0x20 ∨ 0x85 ≤ c.toNat := by
  simp only [isBlank, Bool.or_eq_true, Bool.and_eq_true, decide_eq_true_eq, beq_iff_eq] at h
  omega

/-- The characters between two of ASCII that are not blank are not blank either. -/
theorem not_between_of_isBlank {c first last : Char} (h : isBlank c = true)
    (hfirst : 0x20 < first.toNat) (hlast : last.toNat < 0x85) : ¬ (first ≤ c ∧ c ≤ last) := by
  rintro ⟨hlo, hhi⟩
  have hlo' : first.toNat ≤ c.toNat := UInt32.le_iff_toNat_le.1 hlo
  have hhi' : c.toNat ≤ last.toNat := UInt32.le_iff_toNat_le.1 hhi
  have hblank := toNat_of_isBlank h
  omega

theorem isDigit_of_isBlank {c : Char} (h : isBlank c = true) : c.isDigit = false := by
  rw [Bool.eq_false_iff]
  intro hdigit
  obtain ⟨hlo, hhi⟩ := Bool.and_eq_true_iff.1 hdigit
  exact not_between_of_isBlank h (by decide) (by decide)
    ⟨of_decide_eq_true hlo, of_decide_eq_true hhi⟩

/-- No blank is a letter, a digit or an underscore. -/
theorem isWord_of_isBlank {c : Char} (h : isBlank c = true) : isWord c = false := by
  rw [Bool.eq_false_iff]
  intro hword
  rcases Bool.or_eq_true_iff.1 hword with halphanum | hscore
  · rcases Bool.or_eq_true_iff.1 halphanum with halpha | hdigit
    · rcases Bool.or_eq_true_iff.1 halpha with hupper | hlower
      · exact not_between_of_isBlank h (by decide) (by decide) (of_decide_eq_true hupper)
      · obtain ⟨hlo, hhi⟩ := Bool.and_eq_true_iff.1 hlower
        exact not_between_of_isBlank h (by decide) (by decide)
          ⟨of_decide_eq_true hlo, of_decide_eq_true hhi⟩
    · rw [isDigit_of_isBlank h] at hdigit
      cases hdigit
  · rw [eq_of_beq hscore] at h
    revert h
    decide

theorem isLowerHexDigit_of_isBlank {c : Char} (h : isBlank c = true) :
    isLowerHexDigit c = false := by
  rw [Bool.eq_false_iff]
  intro hhex
  rcases Bool.or_eq_true_iff.1 hhex with hdigit | hletter
  · rw [isDigit_of_isBlank h] at hdigit
    cases hdigit
  · obtain ⟨hlo, hhi⟩ := Bool.and_eq_true_iff.1 hletter
    exact not_between_of_isBlank h (by decide) (by decide)
      ⟨of_decide_eq_true hlo, of_decide_eq_true hhi⟩

theorem trim_append_blank {c : Char} (h : isBlank c = true) (cs : List Char) :
    trim (cs ++ [c]) = trim cs := by
  have hblank : ∀ d ∈ [c], isBlank d = true := by
    intro d hd
    rw [List.mem_singleton.1 hd, h]
  unfold trim trimStart
  rw [List.dropWhile_append]
  split
  · rename_i hempty
    rw [List.isEmpty_iff.1 hempty, dropWhile_blanks hblank]
  · exact trimEnd_append _ hblank

end Text

open Text (isBlank isWord)

section Front

variable {start : List Char} {c : Char}

/-- What a text starts with it does not start with only because of its last character, if that is
another one. -/
theorem strip?_append_singleton (h : start.getLast? ≠ some c) (cs : List Char) :
    strip? start (cs ++ [c]) = (strip? start cs).map (· ++ [c]) := by
  induction start generalizing cs with
  | nil => rfl
  | cons s start ih =>
    cases cs with
    | cons d cs =>
      simp only [List.cons_append, strip?]
      split
      · cases start with
        | nil => rfl
        | cons s' start => exact ih (by rwa [List.getLast?_cons_cons] at h) cs
      · rfl
    | nil =>
      simp only [List.nil_append, strip?, Option.map_none]
      split
      · rename_i hs
        cases start with
        | nil => exact absurd (congrArg some hs) h
        | cons s' start => rfl
      · rfl

theorem isPrefixOf_eq_isSome_strip? (start cs : List Char) :
    start.isPrefixOf cs = (strip? start cs).isSome := by
  rw [Bool.eq_iff_iff, List.isPrefixOf_iff_prefix, Option.isSome_iff_exists]
  constructor
  · rintro ⟨rest, hrest⟩
    exact ⟨rest, strip?_eq_some_iff.2 hrest.symm⟩
  · rintro ⟨rest, hrest⟩
    exact ⟨rest, (strip?_eq_some_iff.1 hrest).symm⟩

theorem isPrefixOf_append_singleton (h : start.getLast? ≠ some c) (cs : List Char) :
    start.isPrefixOf (cs ++ [c]) = start.isPrefixOf cs := by
  rw [isPrefixOf_eq_isSome_strip?, isPrefixOf_eq_isSome_strip?, strip?_append_singleton h,
    Option.isSome_map]

theorem splitRun?_append_singleton {p : Char → Bool} (h : p c = false) (cs : List Char) :
    splitRun? p (cs ++ [c]) = (splitRun? p cs).map fun x => (x.1, x.2 ++ [c]) := by
  have htake : (cs ++ [c]).takeWhile p = cs.takeWhile p := by
    rw [List.takeWhile_append]
    split
    · rename_i hall
      simp [h, (List.takeWhile_prefix p).eq_of_length hall]
    · rfl
  have hdrop : (cs ++ [c]).dropWhile p = cs.dropWhile p ++ [c] := by
    rw [List.dropWhile_append]
    split
    · rename_i hempty
      simp [h, List.isEmpty_iff.1 hempty]
    · rfl
  unfold splitRun?
  rw [htake, hdrop]
  split <;> rfl

/-- Behind blanks there is the start of a number or there is none, whatever blank ends the line. -/
theorem strip?_blanks_append_blank (h : isBlank c = true) (cs : List Char) :
    ((splitRun? isBlank (cs ++ [c])).bind fun x => strip? ['0', 'x'] x.2) =
      ((splitRun? isBlank cs).bind fun x => strip? ['0', 'x'] x.2).map (· ++ [c]) := by
  cases hd : cs.dropWhile isBlank with
  | nil =>
    -- only blanks: no number follows
    have hd' : (cs ++ [c]).dropWhile isBlank = [] := by
      rw [List.dropWhile_append, hd, List.dropWhile_cons, h]
      rfl
    simp only [splitRun?, hd, hd']
    split <;> split <;> rfl
  | cons d rest =>
    have hd' : (cs ++ [c]).dropWhile isBlank = d :: rest ++ [c] := by
      rw [List.dropWhile_append, hd]
      rfl
    have htake : (cs ++ [c]).takeWhile isBlank = cs.takeWhile isBlank := by
      have hlen := congrArg List.length (cs.takeWhile_append_dropWhile (p := isBlank))
      rw [hd, List.length_append, List.length_cons] at hlen
      rw [List.takeWhile_append, if_neg (by omega)]
    have hx : ['0', 'x'].getLast? ≠ some c := Text.some_ne_of_isBlank h rfl
    simp only [splitRun?, hd, hd', htake]
    split
    · rfl
    · exact strip?_append_singleton hx (d :: rest)

end Front

namespace Define

variable {marker : List Char} {isDigit : Char → Bool}

/-- The blanks of a definition and the start of its number, read as one step. -/
theorem read?_eq (line : List Char) : read? marker isDigit line =
    (strip? marker line).bind fun rest => (splitRun? isWord rest).bind fun x =>
      ((splitRun? isBlank x.2).bind fun y => strip? ['0', 'x'] y.2).bind fun rest =>
        (splitRun? isDigit rest).bind fun y =>
          (readTail? y.2).bind fun comment => some ⟨x.1, y.1, comment⟩ := by
  simp only [Option.bind_assoc]
  rfl

/-- A blank at the end of a line changes nothing for a definition. -/
theorem read?_append_blank {c : Char} (h : isBlank c = true) (hmarker : marker.getLast? ≠ some c)
    (hdigit : isDigit c = false) (line : List Char) :
    read? marker isDigit (line ++ [c]) = read? marker isDigit line := by
  have htail : ∀ cs, readTail? (cs ++ [c]) = readTail? cs := by
    intro cs
    unfold readTail?
    rw [Text.trim_append_blank h]
  rw [read?_eq, read?_eq, strip?_append_singleton hmarker]
  simp only [Option.bind_map, Function.comp_def, splitRun?_append_singleton (Text.isWord_of_isBlank h),
    strip?_blanks_append_blank h, splitRun?_append_singleton hdigit, htail]

end Define

end KeyDispatch
