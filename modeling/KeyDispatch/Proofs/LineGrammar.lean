import KeyDispatch.Proofs.LineEnds
import KeyDispatch.Toolkit
import Mathlib.Tactic

/-!
# The grammars of the lines

The recognisers of lines go from the front to the back and take the longest run at each step. Here
the lines they accept are described by their parts: a definition with a marker (`Define.Written`)
and an enumerator of the toolkit (`ToolkitTable.Written`). A run ends where the text goes on with
another kind of character, which the part behind it sees to, so the longest run is the only one
(`splitRun?_eq_some_iff`), and each recogniser finds the parts that there are.
-/

namespace KeyDispatch

open Text (isBlank isWord)

/-! ## Runs -/

/-- A run of characters with `p` that is not empty. -/
structure IsRun (p : Char → Bool) (run : List Char) : Prop where
  ne_nil : run ≠ []
  all : ∀ c ∈ run, p c

/-- The text does not start with a character with `p`. -/
def Stops (p : Char → Bool) (cs : List Char) : Prop := ∀ c ∈ cs.head?, ¬ p c

section Runs

variable {p : Char → Bool} {run rest : List Char}

theorem stops_nil : Stops p [] := fun _ h => nomatch h

theorem stops_cons {c : Char} : Stops p (c :: rest) ↔ ¬ p c := by
  simp [Stops]

theorem Stops.append (hrun : Stops p run) (hrest : Stops p rest) : Stops p (run ++ rest) := by
  cases run with
  | nil => exact hrest
  | cons c run => exact stops_cons.2 (stops_cons.1 hrun)

theorem stops_dropWhile (cs : List Char) : Stops p (cs.dropWhile p) := by
  induction cs with
  | nil => exact stops_nil
  | cons c cs ih =>
    rw [List.dropWhile_cons]
    split
    · exact ih
    · next hc => exact stops_cons.2 hc

theorem Stops.takeWhile_eq (h : Stops p rest) : rest.takeWhile p = [] := by
  cases rest with
  | nil => rfl
  | cons c rest => exact List.takeWhile_cons_of_neg (stops_cons.1 h)

theorem Stops.dropWhile_eq (h : Stops p rest) : rest.dropWhile p = rest := by
  cases rest with
  | nil => rfl
  | cons c rest => exact List.dropWhile_cons_of_neg (stops_cons.1 h)

theorem takeWhile_append_of_stops (hrun : ∀ c ∈ run, p c) (h : Stops p rest) :
    (run ++ rest).takeWhile p = run := by
  rw [List.takeWhile_append_of_pos hrun, h.takeWhile_eq, List.append_nil]

theorem dropWhile_append_of_stops (hrun : ∀ c ∈ run, p c) (h : Stops p rest) :
    (run ++ rest).dropWhile p = rest := by
  rw [List.dropWhile_append_of_pos hrun, h.dropWhile_eq]

/-- The run at the front is the one behind which the text stops. -/
theorem splitRun?_eq_some_iff {cs : List Char} :
    splitRun? p cs = some (run, rest) ↔ cs = run ++ rest ∧ IsRun p run ∧ Stops p rest := by
  constructor
  · intro h
    obtain ⟨hcs, hne, hall⟩ := splitRun?_eq_some h
    refine ⟨hcs, ⟨hne, hall⟩, ?_⟩
    unfold splitRun? at h
    split at h
    · cases h
    · obtain ⟨-, rfl⟩ := Prod.mk.inj (Option.some.inj h)
      exact stops_dropWhile cs
  · rintro ⟨rfl, hrun, hstops⟩
    rw [splitRun?, takeWhile_append_of_stops hrun.all hstops,
      dropWhile_append_of_stops hrun.all hstops, if_neg]
    rw [List.isEmpty_iff]
    exact hrun.ne_nil

/-- What follows a run of other characters decides only where the run is empty. -/
theorem stops_append_of_all {q : Char → Bool} (hq : ∀ c, q c → ¬ p c) (hrun : ∀ c ∈ run, q c)
    (hrest : Stops p rest) : Stops p (run ++ rest) := by
  cases run with
  | nil => exact hrest
  | cons c run => exact stops_cons.2 (hq c (hrun c List.mem_cons_self))

theorem IsRun.stops_append {q : Char → Bool} (hq : ∀ c, q c → ¬ p c) (hrun : IsRun q run) :
    Stops p (run ++ rest) := by
  obtain ⟨c, run, rfl⟩ := List.exists_cons_of_ne_nil hrun.ne_nil
  exact stops_cons.2 (hq c (hrun.all c List.mem_cons_self))

theorem Stops.mono {q : Char → Bool} (hq : ∀ c, q c → p c) (h : Stops p rest) : Stops q rest :=
  fun c hc hqc => h c hc (hq c hqc)

/-- Behind a run that may be empty there is a given start. -/
theorem strip?_dropWhile_eq_some_iff {start cs : List Char} (hne : start ≠ [])
    (hstart : Stops p start) :
    strip? start (cs.dropWhile p) = some rest ↔
      ∃ before, (∀ c ∈ before, p c) ∧ cs = before ++ (start ++ rest) := by
  rw [strip?_eq_some_iff]
  constructor
  · intro h
    refine ⟨cs.takeWhile p, fun c hc => List.mem_takeWhile_imp hc, ?_⟩
    rw [← h, List.takeWhile_append_dropWhile]
  · rintro ⟨before, hbefore, rfl⟩
    obtain ⟨c, start, rfl⟩ := List.exists_cons_of_ne_nil hne
    exact dropWhile_append_of_stops hbefore (stops_cons.2 (stops_cons.1 hstart))

end Runs

namespace Text

/-! ## Kinds of characters -/

theorem not_isWord_of_isBlank (c : Char) (h : isBlank c) : ¬ isWord c := by
  rw [isWord_of_isBlank h]
  exact Bool.false_ne_true

theorem isWord_of_isHexDigit (c : Char) (h : isHexDigit c) : isWord c := by
  have hword : c.isAlphanum = true → isWord c := fun h => Bool.or_eq_true_iff.2 (.inl h)
  apply hword
  rcases Bool.or_eq_true_iff.1 h with h | hupper
  · rcases Bool.or_eq_true_iff.1 h with hdigit | hlower
    · exact Bool.or_eq_true_iff.2 (.inr hdigit)
    · simp only [Bool.and_eq_true, decide_eq_true_eq] at hlower
      have hz : c ≤ 'z' := Char.le_trans hlower.2 (by decide)
      have hletter : c.isLower = true :=
        Bool.and_eq_true_iff.2 ⟨decide_eq_true hlower.1, decide_eq_true hz⟩
      exact Bool.or_eq_true_iff.2 (.inl (Bool.or_eq_true_iff.2 (.inr hletter)))
  · simp only [Bool.and_eq_true, decide_eq_true_eq] at hupper
    have hz : c ≤ 'Z' := Char.le_trans hupper.2 (by decide)
    have hletter : c.isUpper = true := decide_eq_true ⟨hupper.1, hz⟩
    exact Bool.or_eq_true_iff.2 (.inl (Bool.or_eq_true_iff.2 (.inl hletter)))

theorem isWord_of_isLowerHexDigit (c : Char) (h : isLowerHexDigit c) : isWord c :=
  isWord_of_isHexDigit c (isHexDigit_of_isLowerHexDigit h)

theorem toNat_lt_of_isWord {c : Char} (h : isWord c) : c.toNat < 128 := by
  have upTo : ∀ {last : Char}, c ≤ last → c.toNat ≤ last.toNat :=
    fun h => UInt32.le_iff_toNat_le.1 h
  rcases Bool.or_eq_true_iff.1 h with h | h
  · rcases Bool.or_eq_true_iff.1 h with h | h
    · rcases Bool.or_eq_true_iff.1 h with h | h
      · exact (upTo (of_decide_eq_true h).2).trans_lt (by decide)
      · exact (upTo (of_decide_eq_true (Bool.and_eq_true_iff.1 h).2)).trans_lt (by decide)
    · exact (Char.isDigit_iff_toNat.1 h).2.trans_lt (by decide)
  · rw [eq_of_beq h]
    decide

/-! ## Blanks at both ends -/

/-- No blank at either end. -/
structure IsTrimmed (cs : List Char) : Prop where
  front : Stops isBlank cs
  back : Stops isBlank cs.reverse

theorem exists_blanks_trimStart (cs : List Char) : ∃ blanks : List Char,
    (∀ c ∈ blanks, isBlank c) ∧ cs = blanks ++ trimStart cs :=
  ⟨cs.takeWhile isBlank, fun _ hc => List.mem_takeWhile_imp hc,
    List.takeWhile_append_dropWhile.symm⟩

theorem trim_append {before inner after : List Char} (hbefore : ∀ c ∈ before, isBlank c)
    (hafter : ∀ c ∈ after, isBlank c) (hinner : IsTrimmed inner) :
    trim (before ++ (inner ++ after)) = inner := by
  rw [trim, trimStart, List.dropWhile_append_of_pos hbefore]
  cases inner with
  | nil =>
    rw [List.nil_append, dropWhile_blanks hafter]
    rfl
  | cons c inner =>
    have hfront : Stops isBlank (c :: inner ++ after) := stops_cons.2 (stops_cons.1 hinner.front)
    rw [hfront.dropWhile_eq, trimEnd_append _ hafter, trimEnd, hinner.back.dropWhile_eq,
      List.reverse_reverse]

theorem isTrimmed_trim (cs : List Char) : IsTrimmed (trim cs) where
  front := by
    obtain ⟨after, hafter⟩ : trim cs <+: trimStart cs := by
      rw [trim, trimEnd, ← List.reverse_suffix, List.reverse_reverse]
      exact List.dropWhile_suffix isBlank
    have hstart : Stops isBlank (trimStart cs) := stops_dropWhile cs
    rw [← hafter] at hstart
    intro c hc
    exact hstart c (List.mem_head?_append_of_mem_head? hc)
  back := by
    rw [trim, trimEnd, List.reverse_reverse]
    exact stops_dropWhile _

/-- What is left of a text is what stands between blanks and has none at its ends. -/
theorem trim_eq_iff {cs inner : List Char} :
    trim cs = inner ↔ IsTrimmed inner ∧ ∃ before after : List Char,
      (∀ c ∈ before, isBlank c) ∧ (∀ c ∈ after, isBlank c) ∧ cs = before ++ (inner ++ after) := by
  constructor
  · rintro rfl
    obtain ⟨before, hbefore, hstart⟩ := exists_blanks_trimStart cs
    -- from the back the end is a start
    obtain ⟨after, hafter, hend⟩ := exists_blanks_trimStart (trimStart cs).reverse
    have hinner : trimStart cs = trim cs ++ after.reverse := by
      rw [trim, trimEnd, ← trimStart, ← List.reverse_append, ← hend, List.reverse_reverse]
    refine ⟨isTrimmed_trim cs, before, after.reverse, hbefore, ?_, ?_⟩
    · exact fun c hc => hafter c (List.mem_reverse.1 hc)
    · rw [← hinner, ← hstart]
  · rintro ⟨hinner, before, after, hbefore, hafter, rfl⟩
    exact trim_append hbefore hafter hinner

end Text

/-! ## Definitions -/

/-- A comment, if there is one. -/
def commentText : Option (List Char) → List Char
  | none => []
  | some body => ['/', '*'] ++ (body ++ ['*', '/'])

theorem isTrimmed_commentText (comment : Option (List Char)) :
    Text.IsTrimmed (commentText comment) := by
  cases comment with
  | none => exact ⟨stops_nil, stops_nil⟩
  | some body =>
    refine ⟨stops_cons.2 (by decide), ?_⟩
    rw [commentText, List.reverse_append, List.reverse_append]
    exact stops_cons.2 (by decide)

theorem stops_commentText {comment : Option (List Char)} {after : List Char}
    (hafter : ∀ c ∈ after, isBlank c) : Stops isWord (commentText comment ++ after) := by
  cases comment with
  | none =>
    rw [commentText, List.nil_append, ← List.append_nil after]
    exact stops_append_of_all Text.not_isWord_of_isBlank hafter stops_nil
  | some body => exact stops_cons.2 (by decide)

theorem commentText_injective : Function.Injective commentText := by
  intro a b h
  cases a <;> cases b
  · rfl
  · cases h
  · cases h
  · exact congrArg some (List.append_cancel_right (List.append_cancel_left h))

theorem commentBody?_eq_some_iff {cs body : List Char} :
    commentBody? cs = some body ↔ cs = commentText (some body) := by
  simp only [commentBody?, Option.bind_eq_bind, Option.bind_eq_some_iff, strip?_eq_some_iff,
    Option.pure_def, Option.some.injEq]
  constructor
  · rintro ⟨inner, rfl, reversed, hinner, rfl⟩
    have hreverse := congrArg List.reverse hinner
    rw [List.reverse_reverse, List.reverse_append] at hreverse
    rw [hreverse]
    rfl
  · rintro rfl
    refine ⟨body ++ ['*', '/'], rfl, body.reverse, ?_, List.reverse_reverse body⟩
    rw [List.reverse_append]
    rfl

namespace Define

theorem readTail?_eq_some_iff {cs : List Char} {comment : Option (List Char)} :
    readTail? cs = some comment ↔ ∃ before after : List Char,
      (∀ c ∈ before, isBlank c) ∧ (∀ c ∈ after, isBlank c) ∧
        cs = before ++ (commentText comment ++ after) := by
  have htrim : readTail? cs = some comment ↔ Text.trim cs = commentText comment := by
    unfold readTail?
    split
    · next hempty =>
      rw [hempty, Option.some.injEq]
      constructor
      · rintro rfl
        rfl
      · exact fun h => commentText_injective h
    · next hne =>
      rw [Option.map_eq_some_iff]
      constructor
      · rintro ⟨body, hbody, rfl⟩
        exact commentBody?_eq_some_iff.1 hbody
      · intro h
        cases comment with
        | none => exact absurd h hne
        | some body => exact ⟨body, commentBody?_eq_some_iff.2 h, rfl⟩
  rw [htrim, Text.trim_eq_iff]
  exact and_iff_right (isTrimmed_commentText comment)

/-- The parts of a definition line: `marker`, a name, blanks, `0x`, digits, and a comment or none,
with blanks around it. -/
def Written (marker : List Char) (isDigit : Char → Bool) (d : Define) (line : List Char) : Prop :=
  ∃ between before after : List Char,
    IsRun isWord d.name ∧ IsRun isBlank between ∧ IsRun isDigit d.digits ∧
      (∀ c ∈ before, isBlank c) ∧ (∀ c ∈ after, isBlank c) ∧
      line = marker ++ (d.name ++ (between ++ (['0', 'x'] ++
        (d.digits ++ (before ++ (commentText d.comment ++ after))))))

variable {marker : List Char} {isDigit : Char → Bool}

/-- Exactly the definition lines are recognised, if digits are word characters. -/
theorem read?_eq_some_iff (hdigit : ∀ c, isDigit c → isWord c) {line : List Char} {d : Define} :
    read? marker isDigit line = some d ↔ d.Written marker isDigit line := by
  simp only [read?, Option.bind_eq_bind, Option.bind_eq_some_iff, strip?_eq_some_iff, Prod.exists,
    splitRun?_eq_some_iff, readTail?_eq_some_iff, Option.pure_def, Option.some.injEq]
  constructor
  · rintro ⟨_, rfl, name, _, ⟨rfl, hname, -⟩, between, _, ⟨rfl, hbetween, -⟩, _, rfl, digits, _,
      ⟨rfl, hdigits, -⟩, comment, ⟨before, after, hbefore, hafter, rfl⟩, rfl⟩
    exact ⟨between, before, after, hname, hbetween, hdigits, hbefore, hafter, rfl⟩
  · rintro ⟨between, before, after, hname, hbetween, hdigits, hbefore, hafter, rfl⟩
    -- behind the digits there are blanks, a comment or nothing
    have hbehind : Stops isWord (before ++ (commentText d.comment ++ after)) :=
      stops_append_of_all Text.not_isWord_of_isBlank hbefore (stops_commentText hafter)
    exact ⟨_, rfl, d.name, _, ⟨rfl, hname, hbetween.stops_append Text.not_isWord_of_isBlank⟩,
      between, _, ⟨rfl, hbetween, stops_cons.2 (by decide)⟩, _, rfl, d.digits, _,
      ⟨rfl, hdigits, hbehind.mono hdigit⟩, d.comment, ⟨before, after, hbefore, hafter, rfl⟩, rfl⟩

/-- A line is a definition in one way only. -/
theorem Written.unique (hdigit : ∀ c, isDigit c → isWord c) {line : List Char} {d d' : Define}
    (h : d.Written marker isDigit line) (h' : d'.Written marker isDigit line) : d = d' := by
  rw [← read?_eq_some_iff hdigit] at h h'
  exact Option.some.inj (h.symm.trans h')

section OfLine

variable {source : Source} {l : Numbered (List Char)}

theorem read?_eq_none_iff (hdigit : ∀ c, isDigit c → isWord c) {line : List Char} :
    read? marker isDigit line = none ↔ ∀ d : Define, ¬ d.Written marker isDigit line := by
  rw [Option.eq_none_iff_forall_ne_some]
  exact forall_congr' fun d => not_congr (read?_eq_some_iff hdigit)

theorem ofLine_of_written (hdigit : ∀ c, isDigit c → isWord c) {d : Define} {code : UInt32}
    (h : d.Written marker isDigit l.content) (hcode : Text.hexValue d.digits = code.toNat) :
    ofLine source marker isDigit l = .ok (some (d, code)) := by
  simp only [ofLine, (read?_eq_some_iff hdigit).2 h, Text.readWord_eq_some_iff.2 hcode]

theorem ofLine_of_tooLarge (hdigit : ∀ c, isDigit c → isWord c) {d : Define}
    (h : d.Written marker isDigit l.content) (hlarge : 2 ^ 32 ≤ Text.hexValue d.digits) :
    ofLine source marker isDigit l =
      .error (.invalidCode source l.line (String.ofList (Text.trim l.content))) := by
  simp only [ofLine, (read?_eq_some_iff hdigit).2 h, Text.readWord_eq_none_iff.2 hlarge]

theorem ofLine_of_malformed (hdigit : ∀ c, isDigit c → isWord c)
    (h : ∀ d : Define, ¬ d.Written marker isDigit l.content) (hmarker : marker <+: l.content) :
    ofLine source marker isDigit l =
      .error (.malformedDefinition source l.line (String.ofList (Text.trim l.content))) := by
  simp only [ofLine, (read?_eq_none_iff hdigit).2 h, List.isPrefixOf_iff_prefix.2 hmarker, if_true]

theorem ofLine_of_other (hdigit : ∀ c, isDigit c → isWord c)
    (h : ∀ d : Define, ¬ d.Written marker isDigit l.content) (hmarker : ¬ marker <+: l.content) :
    ofLine source marker isDigit l = .ok none := by
  simp only [ofLine, (read?_eq_none_iff hdigit).2 h, List.isPrefixOf_iff_prefix, if_neg hmarker]

theorem ofLine_eq_ok_some_iff (hdigit : ∀ c, isDigit c → isWord c) {d : Define} {code : UInt32} :
    ofLine source marker isDigit l = .ok (some (d, code)) ↔
      d.Written marker isDigit l.content ∧ Text.hexValue d.digits = code.toNat := by
  constructor
  · intro h
    unfold ofLine at h
    split at h
    · split at h <;> cases h
    · next hread =>
      split at h
      · cases h
      · next hcode =>
        cases h
        exact ⟨(read?_eq_some_iff hdigit).1 hread, Text.readWord_eq_some_iff.1 hcode⟩
  · exact fun h => ofLine_of_written hdigit h.1 h.2

theorem ofLine_eq_ok_none_iff (hdigit : ∀ c, isDigit c → isWord c) :
    ofLine source marker isDigit l = .ok none ↔
      (∀ d : Define, ¬ d.Written marker isDigit l.content) ∧ ¬ marker <+: l.content := by
  rw [← read?_eq_none_iff hdigit, ← List.isPrefixOf_iff_prefix, ofLine]
  split
  · next hread => split <;> simp [*]
  · next hread => split <;> simp [hread]

end OfLine

end Define

/-! ## Enumerators -/

namespace ToolkitTable

/-- The part of an enumerator behind its digits: at most one comma between blanks, and then nothing
or a line comment. -/
def IsEnd (cs : List Char) : Prop :=
  ∃ before comma after comment : List Char,
    (∀ c ∈ before, isBlank c) ∧ (comma = [] ∨ comma = [',']) ∧ (∀ c ∈ after, isBlank c) ∧
      (comment = [] ∨ ['/', '/'] <+: comment) ∧ cs = before ++ (comma ++ (after ++ comment))

/-- The parts of an enumerator: spaces, `Key_` and a name, an equals sign between blanks, `0x` and
digits, and an end. -/
def Written (name digits : List Char) (line : List Char) : Prop :=
  ∃ spaces before after rest : List Char,
    (∀ c ∈ spaces, c = ' ') ∧ IsRun isWord name ∧ (∀ c ∈ before, isBlank c) ∧
      (∀ c ∈ after, isBlank c) ∧ IsRun Text.isHexDigit digits ∧ IsEnd rest ∧
      line = spaces ++ ("Key_".toList ++ (name ++ (before ++ (['='] ++ (after ++
        (['0', 'x'] ++ (digits ++ rest)))))))

theorem isTail_eq_true_iff {cs : List Char} : isTail cs = true ↔ IsEnd cs := by
  have hcomment : ∀ comment : List Char,
      (comment.isEmpty || ['/', '/'].isPrefixOf comment) = true ↔
        comment = [] ∨ ['/', '/'] <+: comment := by
    intro comment
    rw [Bool.or_eq_true_iff, List.isEmpty_iff, List.isPrefixOf_iff_prefix]
  simp only [isTail, hcomment]
  constructor
  · intro h
    obtain ⟨before, hbefore, hcs⟩ := Text.exists_blanks_trimStart cs
    split at h
    -- behind the blanks stands a comma, or it stands nowhere
    · next hcomma =>
      obtain ⟨rest, hrest⟩ := List.head?_eq_some_iff.1 (eq_of_beq hcomma)
      rw [hrest, List.tail_cons] at h
      obtain ⟨after, hafter, hinner⟩ := Text.exists_blanks_trimStart rest
      refine ⟨before, [','], after, _, hbefore, .inr rfl, hafter, h, ?_⟩
      rw [← hinner, List.singleton_append, ← hrest, ← hcs]
    · obtain ⟨after, hafter, hinner⟩ := Text.exists_blanks_trimStart (Text.trimStart cs)
      refine ⟨before, [], after, _, hbefore, .inl rfl, hafter, h, ?_⟩
      rw [← hinner, List.nil_append, ← hcs]
  · rintro ⟨before, comma, after, comment, hbefore, hcomma, hafter, hend, rfl⟩
    have hblank : Stops isBlank comment ∧ comment.head? ≠ some ',' := by
      rcases hend with rfl | ⟨rest, rfl⟩
      · exact ⟨stops_nil, nofun⟩
      · exact ⟨stops_cons.2 (by decide), by simp⟩
    rcases hcomma with rfl | rfl
    -- without a comma the blanks are one run
    · have htrim : Text.trimStart (before ++ ([] ++ (after ++ comment))) = comment := by
        rw [List.nil_append, ← List.append_assoc]
        refine dropWhile_append_of_stops ?_ hblank.1
        exact fun c hc => (List.mem_append.1 hc).elim (hbefore c) (hafter c)
      rw [htrim, if_neg (by simpa using hblank.2), Text.trimStart, hblank.1.dropWhile_eq]
      exact hend
    · have htrim : Text.trimStart (before ++ ([','] ++ (after ++ comment))) =
          ',' :: (after ++ comment) :=
        dropWhile_append_of_stops hbefore (stops_cons.2 (by decide))
      rw [htrim, List.head?_cons, if_pos (beq_self_eq_true _), List.tail_cons, Text.trimStart,
        dropWhile_append_of_stops hafter hblank.1]
      exact hend

theorem IsEnd.stops {cs : List Char} (h : IsEnd cs) : Stops isWord cs := by
  obtain ⟨before, comma, after, comment, hbefore, hcomma, hafter, hcomment, rfl⟩ := h
  refine stops_append_of_all Text.not_isWord_of_isBlank hbefore (Stops.append ?_ ?_)
  · rcases hcomma with rfl | rfl
    · exact stops_nil
    · exact stops_cons.2 (by decide)
  · refine stops_append_of_all Text.not_isWord_of_isBlank hafter ?_
    rcases hcomment with rfl | ⟨rest, rfl⟩
    · exact stops_nil
    · exact stops_cons.2 (by decide)

/-- Exactly the enumerators are recognised. -/
theorem read?_eq_some_iff {line name digits : List Char} :
    read? line = some (name, digits) ↔ Written name digits line := by
  have hkey : Stops (· == ' ') "Key_".toList := by simp [Stops]
  have heq : Stops isBlank ['='] := stops_cons.2 (by decide)
  have hbase : Stops isBlank ['0', 'x'] := stops_cons.2 (by decide)
  simp only [read?, Option.bind_eq_bind, Option.bind_eq_some_iff, Text.trimStart, Prod.exists,
    strip?_dropWhile_eq_some_iff (by decide) hkey,
    strip?_dropWhile_eq_some_iff (by decide) heq,
    strip?_dropWhile_eq_some_iff (by decide) hbase, splitRun?_eq_some_iff,
    Option.guard_eq_some', isTail_eq_true_iff, Option.pure_def, Option.some.injEq, Prod.mk.injEq]
  constructor
  · rintro ⟨_, ⟨spaces, hspaces, rfl⟩, _, _, ⟨rfl, hname, -⟩, _, ⟨before, hbefore, rfl⟩, _,
      ⟨after, hafter, rfl⟩, _, rest, ⟨rfl, hdigits, -⟩, _, hrest, rfl, rfl⟩
    exact ⟨spaces, before, after, rest, fun c hc => eq_of_beq (hspaces c hc), hname, hbefore,
      hafter, hdigits, hrest, rfl⟩
  · rintro ⟨spaces, before, after, rest, hspaces, hname, hbefore, hafter, hdigits, hrest, rfl⟩
    have hequals : ∀ cs : List Char, Stops isWord (before ++ (['='] ++ cs)) := fun cs =>
      stops_append_of_all Text.not_isWord_of_isBlank hbefore (stops_cons.2 (by decide))
    exact ⟨_, ⟨spaces, fun c hc => beq_iff_eq.2 (hspaces c hc), rfl⟩, name, _,
      ⟨rfl, hname, hequals _⟩, _, ⟨before, hbefore, rfl⟩, _, ⟨after, hafter, rfl⟩, digits, rest,
      ⟨rfl, hdigits, hrest.stops.mono Text.isWord_of_isHexDigit⟩, (), hrest, rfl, rfl⟩

section OfLine

variable {l : Numbered (List Char)}

theorem read?_eq_none_iff {line : List Char} :
    read? line = none ↔ ∀ name digits, ¬ Written name digits line := by
  rw [Option.eq_none_iff_forall_ne_some, Prod.forall]
  exact forall₂_congr fun name digits => not_congr read?_eq_some_iff

theorem ofLine_eq_ok_some_iff {key : String × UInt32} :
    ofLine l = .ok (some key) ↔
      ∃ digits, Written key.1.toList digits l.content ∧ Text.hexValue digits = key.2.toNat := by
  constructor
  · intro h
    unfold ofLine at h
    split at h
    · cases h
    · next name digits hread =>
      split at h
      · cases h
      · next code hcode =>
        cases h
        rw [String.toList_ofList]
        exact ⟨digits, read?_eq_some_iff.1 hread, Text.readWord_eq_some_iff.1 hcode⟩
  · rintro ⟨digits, hwritten, hcode⟩
    simp only [ofLine, read?_eq_some_iff.2 hwritten, Text.readWord_eq_some_iff.2 hcode,
      String.ofList_toList]

theorem ofLine_eq_ok_none_iff :
    ofLine l = .ok none ↔ ∀ name digits, ¬ Written name digits l.content := by
  rw [← read?_eq_none_iff, ofLine]
  split
  · next hread => exact iff_of_true rfl hread
  · next hread => split <;> simp [hread]

/-- A line is refused exactly if it is an enumerator whose value does not fit. -/
theorem ofLine_eq_error_iff {e : HeaderError} :
    ofLine l = .error e ↔
      ∃ name digits, Written name digits l.content ∧ 2 ^ 32 ≤ Text.hexValue digits ∧
        e = .invalidCode .toolkit l.line (String.ofList (Text.trim l.content)) := by
  constructor
  · intro h
    unfold ofLine at h
    split at h
    · cases h
    · next name digits hread =>
      split at h
      · next hlarge =>
        exact ⟨name, digits, read?_eq_some_iff.1 hread, Text.readWord_eq_none_iff.1 hlarge,
          (Except.error.inj h).symm⟩
      · cases h
  · rintro ⟨name, digits, hwritten, hlarge, rfl⟩
    simp only [ofLine, read?_eq_some_iff.2 hwritten, Text.readWord_eq_none_iff.2 hlarge]

end OfLine

end ToolkitTable

end KeyDispatch
