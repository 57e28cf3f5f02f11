import Mathlib.Tactic
import KeyDispatch.Artifact.Lines
import KeyDispatch.Text.Blank
import KeyDispatch.Text.Hex

/-!
# Tokens of generated code

Generated code is read as a list of tokens: words (names and numbers), string literals, single
signs and line ends. The lexer is a machine that takes one character after the other, so what it
makes of two texts put together follows from what it makes of each. `Lexes cs ts` says that the
characters `cs` are the tokens `ts`, with nothing begun before them and nothing left open behind
them.
-/

namespace KeyDispatch

/-- Tokens of generated code. -/
inductive Token where
  | word (text : String)
  | literal (content : String)
  | sign (c : Char)
  | lineEnd
deriving DecidableEq

namespace Token

/-- The characters of words. Beyond ASCII these are all characters that are not blank, more than any
identifier has. -/
def isWordChar (c : Char) : Bool := Text.isWord c || (0x80 ≤ c.toNat && !Text.isBlank c)

/-- What the lexer is in the middle of. -/
inductive Mode where
  | between
  | word (run : List Char)
  | quoted (run : List Char)
  | slash
  | lineComment
  | blockComment
  | blockStar
deriving DecidableEq

/-- What a character does that no token or comment is waiting for. -/
def start (c : Char) : List Token × Mode :=
  if isWordChar c then ([], .word [c])
  else if c = '\n' then ([.lineEnd], .between)
  else if Text.isBlank c then ([], .between)
  else if c = '"' then ([], .quoted [])
  else if c = '/' then ([], .slash)
  else ([.sign c], .between)

/-- What a character does. -/
def step : Mode → Char → List Token × Mode
  | .between, c => start c
  | .word run, c =>
    if isWordChar c then ([], .word (run ++ [c]))
    else (.word (String.ofList run) :: (start c).1, (start c).2)
  | .quoted run, c =>
    if c = '"' then ([.literal (String.ofList run)], .between) else ([], .quoted (run ++ [c]))
  | .slash, c =>
    if c = '/' then ([], .lineComment)
    else if c = '*' then ([], .blockComment)
    else (.sign '/' :: (start c).1, (start c).2)
  | .lineComment, c => if c = '\n' then ([.lineEnd], .between) else ([], .lineComment)
  | .blockComment, c => if c = '*' then ([], .blockStar) else ([], .blockComment)
  | .blockStar, c =>
    if c = '/' then ([], .between)
    else if c = '*' then ([], .blockStar)
    else ([], .blockComment)

/-- What the characters do one after the other. -/
def run : Mode → List Char → List Token × Mode
  | m, [] => ([], m)
  | m, c :: cs => ((step m c).1 ++ (run (step m c).2 cs).1, (run (step m c).2 cs).2)

/-- What the end of the text does. A literal or a block comment that nothing closes leaves the sign
behind that opened it. -/
def finish : Mode → List Token
  | .between => []
  | .word run => [.word (String.ofList run)]
  | .quoted _ => [.sign '"']
  | .slash => [.sign '/']
  | .lineComment => []
  | .blockComment => [.sign '/', .sign '*']
  | .blockStar => [.sign '/', .sign '*']

/-- The tokens of a text. -/
def lex (text : String) : List Token :=
  (run .between text.toList).1 ++ finish (run .between text.toList).2

/-- The tokens that are not line ends. -/
def code (ts : List Token) : List Token := ts.filter (· ≠ .lineEnd)

/-- A word that can name something: it does not begin with a digit. -/
def IsIdentifier (name : String) : Prop :=
  name ≠ "" ∧ (∀ c ∈ name.toList, isWordChar c) ∧ ∀ c ∈ name.toList.head?, c.isDigit = false

-- the characters are those of the name; an instance for all characters would try each of them
instance (name : String) : Decidable (IsIdentifier name) :=
  @instDecidableAnd _ _ inferInstance
    (@instDecidableAnd _ _ (List.decidableBAll _ _) (Option.decidableForallMem _))

/-- The characters are the tokens, from between tokens to between tokens. -/
def Lexes (cs : List Char) (ts : List Token) : Prop := run .between cs = (ts, .between)

instance (cs : List Char) (ts : List Token) : Decidable (Lexes cs ts) :=
  inferInstanceAs (Decidable (_ = _))

/-- The text goes on with a character that ends a word. -/
def breaksWord : List Char → Bool
  | [] => false
  | c :: _ => !isWordChar c

/-! ## Pieces of text -/

/-- The machine takes a text in two parts as it takes the parts one after the other. -/
theorem run_append (m : Mode) (a b : List Char) :
    run m (a ++ b) = ((run m a).1 ++ (run (run m a).2 b).1, (run (run m a).2 b).2) := by
  induction a generalizing m with
  | nil => rfl
  | cons c a ih => simp only [List.cons_append, run, ih, List.append_assoc]

/-- A run of word characters makes the word longer. -/
theorem run_word (r : List Char) {w : List Char} (hw : ∀ c ∈ w, isWordChar c) :
    run (.word r) w = ([], .word (r ++ w)) := by
  induction w generalizing r with
  | nil => simp [run]
  | cons c w ih =>
    have hc : isWordChar c := hw c List.mem_cons_self
    have hrest := ih (r ++ [c]) fun d hd => hw d (List.mem_cons_of_mem c hd)
    simp [run, step, hc, hrest]

theorem isWordChar_of_isLowerHexDigit {c : Char} (h : Text.isLowerHexDigit c) : isWordChar c := by
  have hword : c.isAlphanum = true → isWordChar c = true := by
    intro halphanum
    rw [isWordChar, Text.isWord, halphanum, Bool.true_or, Bool.true_or]
  apply hword
  rcases Bool.or_eq_true_iff.1 h with hd | hl
  · exact Bool.or_eq_true_iff.2 (.inr hd)
  · simp only [Bool.and_eq_true, decide_eq_true_eq] at hl
    have hz : c ≤ 'z' := Char.le_trans hl.2 (by decide)
    -- from `a` to `f` is from `a` to `z`
    have hlower : c.isLower = true :=
      Bool.and_eq_true_iff.2 ⟨decide_eq_true hl.1, decide_eq_true hz⟩
    have halpha : c.isAlpha = true := Bool.or_eq_true_iff.2 (.inr hlower)
    exact Bool.or_eq_true_iff.2 (.inl halpha)

theorem isWordChar_of_mem_hexText {width n : Nat} {c : Char}
    (h : c ∈ (Text.hexText width n).toList) : isWordChar c := by
  rw [Text.hexText, String.toList_ofList, List.mem_cons, List.mem_cons] at h
  -- the two characters of the base, then digits
  rcases h with rfl | rfl | h
  · rfl
  · rfl
  · exact isWordChar_of_isLowerHexDigit (Text.isLowerHexDigit_of_mem_padZeros h)

theorem toList_textOfLines (lines : List String) :
    (Artifact.textOfLines lines).toList = lines.flatMap fun line => line.toList ++ ['\n'] := by
  induction lines with
  | nil => rfl
  | cons line lines ih =>
    rw [Artifact.textOfLines, String.toList_append, String.toList_append, ih]
    rfl

theorem toList_textOfLines_append (a b : List String) :
    (Artifact.textOfLines (a ++ b)).toList
      = (Artifact.textOfLines a).toList ++ (Artifact.textOfLines b).toList := by
  rw [Artifact.textOfLines_append, String.toList_append]

theorem toList_textOfLines_singleton (line : String) :
    (Artifact.textOfLines [line]).toList = line.toList ++ ['\n'] := by
  rw [toList_textOfLines, List.flatMap_singleton]

/-- What holds of the lines of each item holds of the lines of all, if it is kept when texts are put
together. -/
theorem textOfLines_flatMap {P : List Char → List Token → Prop} (hnil : P [] [])
    (happend : ∀ {a b ts us}, P a ts → P b us → P (a ++ b) (ts ++ us)) {ι : Type}
    {items : List ι} {lines : ι → List String} {tokens : ι → List Token}
    (h : ∀ i ∈ items, P (Artifact.textOfLines (lines i)).toList (tokens i)) :
    P (Artifact.textOfLines (items.flatMap lines)).toList (items.flatMap tokens) := by
  induction items with
  | nil => exact hnil
  | cons i items ih =>
    have hi := h i List.mem_cons_self
    have hrest := ih fun j hj => h j (List.mem_cons_of_mem i hj)
    rw [List.flatMap_cons, List.flatMap_cons, toList_textOfLines_append]
    exact happend hi hrest

namespace Lexes

variable {a b : List Char} {ts us : List Token}

theorem nil : Lexes [] [] := rfl

theorem lineEnd : Lexes ['\n'] [.lineEnd] := rfl

/-- Fixed lines are checked by running the lexer. -/
theorem of_lines {lines : List String} (h : Lexes (lines.flatMap fun l => l.toList ++ ['\n']) ts) :
    Lexes (Artifact.textOfLines lines).toList ts := by
  rw [toList_textOfLines]
  exact h

/-- Texts put together are their tokens put together. -/
theorem append (ha : Lexes a ts) (hb : Lexes b us) : Lexes (a ++ b) (ts ++ us) := by
  unfold Lexes at ha hb ⊢
  rw [run_append, ha, hb]

/-- A run of word characters is one word where the text goes on with another character. -/
theorem word {w : List Char} (hw : ∀ c ∈ w, isWordChar c) (hne : w ≠ []) (hb : breaksWord b)
    (h : Lexes b us) : Lexes (w ++ b) (.word (String.ofList w) :: us) := by
  -- the first character of each part decides what the machine does there
  obtain ⟨c, w, rfl⟩ := List.exists_cons_of_ne_nil hne
  obtain ⟨d, b, rfl⟩ := List.exists_cons_of_ne_nil (show b ≠ [] by rintro rfl; cases hb)
  have hc : isWordChar c := hw c List.mem_cons_self
  have hd : isWordChar d = false := by simpa [breaksWord] using hb
  have hrun : run .between (c :: w) = ([], .word (c :: w)) := by
    have := run_word [c] fun d hd => hw d (List.mem_cons_of_mem c hd)
    simp only [run, step, start, hc, if_true, this, List.singleton_append, List.append_nil]
  -- the word is given out with what its breaking character starts
  have hend : run (.word (c :: w)) (d :: b) = (.word (String.ofList (c :: w)) :: us, .between) := by
    obtain ⟨htokens, hmode⟩ := Prod.mk.inj h
    simp only [run, step, hd, Bool.false_eq_true, if_false] at htokens hmode ⊢
    rw [List.cons_append, htokens, hmode]
  unfold Lexes
  rw [run_append, hrun]
  exact hend

/-- A name is one word where the text goes on with another character. -/
theorem name {n : String} (h : Lexes b us) (hn : IsIdentifier n) (hb : breaksWord b) :
    Lexes (n.toList ++ b) (.word n :: us) := by
  have hne : n.toList ≠ [] := by simpa [String.toList_eq_nil_iff] using hn.1
  have := word hn.2.1 hne hb h
  rwa [String.ofList_toList] at this

/-- A number in hexadecimal form is one word. -/
theorem hexText (h : Lexes b us) (width n : Nat) (hb : breaksWord b) :
    Lexes ((Text.hexText width n).toList ++ b) (.word (Text.hexText width n) :: us) := by
  have hne : (Text.hexText width n).toList ≠ [] := by
    rw [Text.hexText, String.toList_ofList]
    exact List.cons_ne_nil _ _
  have hword := word (fun _ => isWordChar_of_mem_hexText) hne hb h
  rwa [String.ofList_toList] at hword

theorem lex_eq {text : String} (h : Lexes text.toList ts) : lex text = ts := by
  unfold lex
  rw [h]
  exact List.append_nil ts

end Lexes

/-- The characters are the tokens up to line ends. -/
def Codes (cs : List Char) (ts : List Token) : Prop := ∃ us, Lexes cs us ∧ code us = ts

namespace Codes

variable {a b : List Char} {ts us : List Token}

/-- A fixed text is checked by running the lexer. -/
theorem of_run (h : (run .between a).2 = .between ∧ code (run .between a).1 = ts) : Codes a ts :=
  ⟨(run .between a).1, Prod.ext rfl h.1, h.2⟩

theorem of_run_lines {lines : List String}
    (h : (run .between (lines.flatMap fun line => line.toList ++ ['\n'])).2 = .between ∧
      code (run .between (lines.flatMap fun line => line.toList ++ ['\n'])).1 = ts) :
    Codes (Artifact.textOfLines lines).toList ts := by
  rw [toList_textOfLines]
  exact of_run h

theorem nil : Codes [] [] := ⟨[], Lexes.nil, rfl⟩

theorem append (ha : Codes a ts) (hb : Codes b us) : Codes (a ++ b) (ts ++ us) := by
  obtain ⟨_, ha, rfl⟩ := ha
  obtain ⟨_, hb, rfl⟩ := hb
  exact ⟨_, ha.append hb, List.filter_append ..⟩

theorem name {n : String} (hb : Codes b us) (hn : IsIdentifier n) (hbreak : breaksWord b) :
    Codes (n.toList ++ b) ([.word n] ++ us) := by
  obtain ⟨_, hb, rfl⟩ := hb
  exact ⟨_, hb.name hn hbreak, rfl⟩

theorem hexText (hb : Codes b us) (width n : Nat) (hbreak : breaksWord b) :
    Codes ((Text.hexText width n).toList ++ b) ([.word (Text.hexText width n)] ++ us) := by
  obtain ⟨_, hb, rfl⟩ := hb
  exact ⟨_, hb.hexText width n hbreak, rfl⟩

theorem code_lex_eq {text : String} (h : Codes text.toList ts) : code (lex text) = ts := by
  obtain ⟨_, h, rfl⟩ := h
  rw [h.lex_eq]

end Codes

end Token

end KeyDispatch
