import KeyDispatch.Primary
import KeyDispatch.Proofs.LineGrammar

/-!
# What a line of the primary header says

A line is a definition in one way or none, and its parts say all about its symbol: the name, the
code, and by the comment without blanks at its ends whether the symbol is the equivalent of a
character or deprecated. A line that is none is an error exactly if it starts with the marker
(`PrimarySymbol.ofLine_followsGrammar`).
-/

namespace KeyDispatch

open Text (isBlank isUpperHexDigit)

/-! ## Comments -/

/-- The comment is `U+`, four to six digits in upper case that make the position, one space, and more
text, which is the name but for blanks at its ends. -/
def UnicodeEquivalent.WrittenIn (u : UnicodeEquivalent) (comment : List Char) : Prop :=
  ∃ digits more : List Char,
    (∀ c ∈ digits, isUpperHexDigit c) ∧ (4 ≤ digits.length ∧ digits.length ≤ 6) ∧
      Text.hexValue digits = u.position.toNat ∧ more ≠ [] ∧
      u.name = String.ofList (Text.trim more) ∧
      comment = ['U', '+'] ++ (digits ++ ([' '] ++ more))

namespace PrimarySymbol

theorem unicodeOf?_eq_some_iff {comment : List Char} (h : Text.IsTrimmed comment)
    {u : UnicodeEquivalent} : unicodeOf? comment = some u ↔ u.WrittenIn comment := by
  simp only [unicodeOf?, Option.bind_eq_bind, Option.bind_eq_some_iff, strip?_eq_some_iff,
    Option.guard_eq_some', Text.readWord_eq_some_iff, Option.pure_def, Option.some.injEq]
  constructor
  · rintro ⟨rest, rfl, more, hmore, _, hlength, position, hposition, rfl⟩
    have hrest : rest = rest.takeWhile isUpperHexDigit ++ ([' '] ++ more) := by
      rw [← hmore, List.takeWhile_append_dropWhile]
    refine ⟨rest.takeWhile isUpperHexDigit, more, fun c hc => List.mem_takeWhile_imp hc, hlength,
      hposition, ?_, rfl, by rw [← hrest]⟩
    -- a comment without blanks at its ends does not end with the space
    rintro rfl
    rw [hrest] at h
    have hback := h.back
    rw [List.append_nil, ← List.append_assoc, List.reverse_append] at hback
    exact absurd (by decide) (stops_cons.1 hback)
  · rintro ⟨digits, more, hdigits, hlength, hposition, -, hname, rfl⟩
    have hspace : Stops isUpperHexDigit ([' '] ++ more) := stops_cons.2 (by decide)
    refine ⟨_, rfl, more, dropWhile_append_of_stops hdigits hspace, (), ?_, u.position, ?_, ?_⟩
    · rw [takeWhile_append_of_stops hdigits hspace]
      exact hlength
    · rw [takeWhile_append_of_stops hdigits hspace]
      exact hposition
    · rw [← hname]

/-- The name of a character is not empty. -/
theorem name_ne_of_writtenIn {comment : List Char} (h : Text.IsTrimmed comment)
    {u : UnicodeEquivalent} (hu : u.WrittenIn comment) : u.name ≠ "" := by
  obtain ⟨digits, more, -, -, -, hmore, hname, rfl⟩ := hu
  intro hempty
  rw [hname] at hempty
  have htrim : Text.trim more = [] := String.ofList_injective hempty
  obtain ⟨-, before, after, hbefore, hafter, hblanks⟩ := Text.trim_eq_iff.1 htrim
  have hblank : ∀ c ∈ more, isBlank c := by
    rw [hblanks, List.nil_append]
    exact fun c hc => (List.mem_append.1 hc).elim (hbefore c) (hafter c)
  -- then the comment would end with a blank
  obtain rfl | ⟨front, last, rfl⟩ := List.eq_nil_or_concat' more
  · exact hmore rfl
  · have hback := h.back
    rw [← List.append_assoc, ← List.append_assoc, ← List.append_assoc, List.reverse_append] at hback
    exact stops_cons.1 hback (hblank last (by simp))

theorem isParenthesised_iff {comment : List Char} :
    isParenthesised comment = true ↔ ['('] <+: comment ∧ [')'] <:+ comment := by
  rw [isParenthesised, Bool.and_eq_true_iff, beq_iff_eq, beq_iff_eq, List.head?_eq_some_iff,
    List.getLast?_eq_some_iff]
  exact and_congr (exists_congr fun _ => eq_comm) (exists_congr fun _ => eq_comm)

/-! ## Symbols -/

/-- What a comment says of a symbol: it is the equivalent of a character, whose name is not empty, or
else deprecated if the comment stands in parentheses. Blanks at the ends of the comment do not
count. -/
structure DescribedBy (s : PrimarySymbol) (comment : Option (List Char)) : Prop where
  unicode_iff : ∀ u, s.unicode = some u ↔
    ∃ body, comment = some body ∧ u.WrittenIn (Text.trim body)
  name_ne : ∀ u, s.unicode = some u → u.name ≠ ""
  deprecated_iff : s.deprecated = true ↔ s.unicode = none ∧
    ∃ body, comment = some body ∧ ['('] <+: Text.trim body ∧ [')'] <:+ Text.trim body

section OfDefine

variable (d : Define) (code : UInt32)

theorem name_ofDefine : (ofDefine d code).name = String.ofList d.name := by
  unfold ofDefine
  split
  · rfl
  · split <;> rfl

theorem code_ofDefine : (ofDefine d code).code = ⟨code⟩ := by
  unfold ofDefine
  split
  · rfl
  · split <;> rfl

theorem unicode_ofDefine :
    (ofDefine d code).unicode = (d.comment.map Text.trim).bind unicodeOf? := by
  unfold ofDefine
  split
  · next h =>
    rw [h]
    rfl
  · next h =>
    rw [h, Option.bind_some]
    split <;> next hunicode => exact hunicode.symm

theorem deprecated_ofDefine : (ofDefine d code).deprecated = true ↔
    (ofDefine d code).unicode = none ∧
      ∃ comment, d.comment.map Text.trim = some comment ∧ isParenthesised comment = true := by
  unfold ofDefine
  split
  · next h => simp [h]
  · next h => split <;> simp [h]

theorem describedBy_ofDefine : (ofDefine d code).DescribedBy d.comment := by
  have hunicode : ∀ u, (ofDefine d code).unicode = some u ↔
      ∃ body, d.comment = some body ∧ u.WrittenIn (Text.trim body) := by
    intro u
    simp only [unicode_ofDefine, Option.bind_eq_some_iff, Option.map_eq_some_iff,
      exists_exists_and_eq_and, unicodeOf?_eq_some_iff (Text.isTrimmed_trim _)]
  refine ⟨hunicode, ?_, ?_⟩
  · intro u hu
    obtain ⟨body, -, hwritten⟩ := (hunicode u).1 hu
    exact name_ne_of_writtenIn (Text.isTrimmed_trim body) hwritten
  · simp only [deprecated_ofDefine, Option.map_eq_some_iff, exists_exists_and_eq_and,
      isParenthesised_iff]

end OfDefine

/-! ## Lines -/

/-- How a line is read, by the definition that it is or by being none. -/
structure FollowsGrammar (l : Numbered (List Char)) : Prop where
  recognised : ∀ d, Define.read? marker Text.isLowerHexDigit l.content = some d ↔
    d.Written marker Text.isLowerHexDigit l.content
  unique : ∀ d d' : Define, d.Written marker Text.isLowerHexDigit l.content →
    d'.Written marker Text.isLowerHexDigit l.content → d = d'
  defined : ∀ d : Define, d.Written marker Text.isLowerHexDigit l.content →
    Text.hexValue d.digits < 2 ^ 32 →
    ∃ s, ofLine l = .ok (some s) ∧ s.name = String.ofList d.name ∧
      s.code.code.toNat = Text.hexValue d.digits ∧ s.DescribedBy d.comment
  tooLarge : ∀ d : Define, d.Written marker Text.isLowerHexDigit l.content →
    2 ^ 32 ≤ Text.hexValue d.digits →
    ofLine l = .error (.invalidCode .keysymdef l.line (String.ofList (Text.trim l.content)))
  malformed : (∀ d : Define, ¬ d.Written marker Text.isLowerHexDigit l.content) →
    marker <+: l.content →
    ofLine l = .error (.malformedDefinition .keysymdef l.line (String.ofList (Text.trim l.content)))
  skipped : (∀ d : Define, ¬ d.Written marker Text.isLowerHexDigit l.content) →
    ¬ marker <+: l.content → ofLine l = .ok none

/-- Any line is read by the grammar. -/
theorem ofLine_followsGrammar (l : Numbered (List Char)) : FollowsGrammar l where
  recognised _ := Define.read?_eq_some_iff Text.isWord_of_isLowerHexDigit
  unique _ _ := Define.Written.unique Text.isWord_of_isLowerHexDigit
  defined d h hvalue := by
    have hcode : Text.hexValue d.digits = (UInt32.ofNat (Text.hexValue d.digits)).toNat :=
      (UInt32.toNat_ofNat_of_lt' hvalue).symm
    refine ⟨ofDefine d (UInt32.ofNat (Text.hexValue d.digits)), ?_, name_ofDefine d _, ?_,
      describedBy_ofDefine d _⟩
    · exact ofLine_eq_ok_some_iff.2
        ⟨d, _, Define.ofLine_of_written Text.isWord_of_isLowerHexDigit h hcode, rfl⟩
    · rw [code_ofDefine, ← hcode]
  tooLarge d h hlarge :=
    ofLine_eq_error_iff.2 (Define.ofLine_of_tooLarge Text.isWord_of_isLowerHexDigit h hlarge)
  malformed h hmarker :=
    ofLine_eq_error_iff.2 (Define.ofLine_of_malformed Text.isWord_of_isLowerHexDigit h hmarker)
  skipped h hmarker := by
    simp only [ofLine, Define.ofLine_of_other Text.isWord_of_isLowerHexDigit h hmarker]

/-- A comment goes on to the last end of a comment. -/
example : (Define.read? marker Text.isLowerHexDigit "#define XK_a 0x61/* a */ b */ ".toList).map
    (·.comment) = some (some " a */ b ".toList) := by
  decide

end PrimarySymbol

end KeyDispatch
