import KeyDispatch.Proofs.CppFunction

/-!
# Tokens of the generated C++ function

The tokens that a table's function has on a platform, once its directives are done with. The
reader of each part takes exactly the tokens of the part, so the function's tokens read as the
function of the table (`CppFunction.reads_function`).
-/

namespace KeyDispatch

namespace CppFunction

open Token Reader

/-! ## Tokens -/

/-- Tokens of a statement that returns a keysym. -/
def returnTokens (keysym : Keysym) : List Token :=
  lex "return" ++ ([.word keysym.text] ++ lex ";")

/-- Name of a modifier's enumerator in its namespace. -/
def modifierName : Modifier → String
  | .shift => "ShiftModifier"
  | .keypad => "KeypadModifier"

/-- Tokens of a choice by a modifier. -/
def choiceTokens (m : Modifier) (set unset : Keysym) : List Token :=
  lex "if (qtModifiers & Qt::" ++ ([.word (modifierName m)] ++ (lex ") \x7b" ++
    (returnTokens set ++ (lex "\x7d else \x7b" ++ (returnTokens unset ++ lex "\x7d")))))

/-- Tokens of a resolution's statement on a platform. -/
def statementTokens (platform : Platform) : Resolution → List Token
  | .fixed keysym => returnTokens keysym
  | .shift lower upper => choiceTokens .shift upper lower
  | .keypad plain onKeypad => choiceTokens .keypad onKeypad plain
  | .swapped normal exchanged target =>
    if platform = target then statementTokens platform exchanged
    else statementTokens platform normal

/-- Tokens of the case of a character. -/
def textCaseTokens (p : UInt32 × Keysym) : List Token :=
  lex "case" ++ ([.word (Text.hexText 4 p.1.toNat)] ++ (lex ":" ++ returnTokens p.2))

/-- Tokens of the label of an entry. -/
def labelTokens (e : Entry) : List Token := lex "case Qt::" ++ ([.word e.constant] ++ lex ":")

/-- Tokens of the case of an entry on a platform. -/
def keyCaseTokens (platform : Platform) (e : Entry) : List Token :=
  labelTokens e ++ statementTokens platform e.resolution

/-- Tokens of the function's head. -/
def headTokens (name : String) : List Token :=
  lex "inline int" ++ ([.word name]
    ++ lex "(int qtKey, int qtModifiers, const QString& text)")

/-- Tokens of the function on a platform. -/
def functionTokens (name : String) (platform : Platform) (t : DecisionTable) : List Token :=
  headTokens name
    ++ (lex "\x7b if (text.size() == 1) \x7b switch (text.unicode()[0].unicode()) \x7b"
    ++ ((t.textCases.toList.filter fun p => CppHeader.isUnit p.1).flatMap textCaseTokens
    ++ (lex "default: break; \x7d \x7d" ++ (lex "switch (qtKey) \x7b"
    ++ (t.entries.toList.flatMap (keyCaseTokens platform) ++ lex "default: return 0; \x7d \x7d")))))

/-! ## The readers take the tokens -/

theorem reads_return (keysym : Keysym) :
    Reads returnStatement (returnTokens keysym) keysym.code := by
  apply (Reads.expect _).bind
  apply (Reads.number (numeral?_hexText 4 keysym.code)).bind
  exact (Reads.expect _).map

theorem reads_choice (m : Modifier) (set unset : Keysym) :
    Reads statement (choiceTokens m set unset)
      (.choice (modifierName m) set.code unset.code) := by
  have hname : IsIdentifier (modifierName m) := by
    cases m <;> decide
  apply Reads.orElse_left
  apply (Reads.expect _).bind
  apply (Reads.name hname).bind
  apply (Reads.expect _).bind
  apply (reads_return set).bind
  apply (Reads.expect _).bind
  apply (reads_return unset).bind
  exact (Reads.expect _).map

/-- The tokens of a resolution on a platform read as its statement there. -/
theorem reads_statement (platform : Platform) (r : Resolution) :
    Reads statement (statementTokens platform r) (CppStatement.ofResolution platform r) := by
  induction r with
  | fixed keysym => exact Reads.orElse_right (fun _ => rfl) (reads_return keysym).map
  | shift lower upper => exact reads_choice .shift upper lower
  | keypad plain onKeypad => exact reads_choice .keypad onKeypad plain
  | swapped normal exchanged target ihn ihe =>
    unfold statementTokens CppStatement.ofResolution
    by_cases h : platform = target
    · rw [if_pos h, if_pos h]
      exact ihe
    · rw [if_neg h, if_neg h]
      exact ihn

theorem reads_textCase (p : UInt32 × Keysym) :
    Reads textCase (textCaseTokens p) (p.1, p.2.code) := by
  apply (Reads.expect _).bind
  apply (Reads.number (numeral?_hexText 4 p.1)).bind
  apply (Reads.expect _).bind
  exact (reads_return p.2).map

theorem reads_keyCase (platform : Platform) {e : Entry} (h : IsIdentifier e.constant) :
    Reads keyCase (keyCaseTokens platform e)
      (e.constant, CppStatement.ofResolution platform e.resolution) := by
  unfold keyCaseTokens labelTokens
  rw [List.append_assoc, List.append_assoc]
  apply (Reads.expect _).bind
  apply (Reads.name h).bind
  apply (Reads.expect _).bind
  exact (reads_statement platform e.resolution).map

/-- The tokens of a table's function read as the function. -/
theorem reads_function {name : String} {t : DecisionTable} (hname : IsIdentifier name)
    (hnames : ∀ e ∈ t.entries.toList, IsIdentifier e.constant) (platform : Platform) :
    Reads function (functionTokens name platform t) (ofTable name platform t) := by
  -- the head's last sign is the brace that the body opens with
  have hopen : lex "\x7b if (text.size() == 1) \x7b switch (text.unicode()[0].unicode()) \x7b"
      = lex "\x7b"
        ++ lex "if (text.size() == 1) \x7b switch (text.unicode()[0].unicode()) \x7b" := by
    decide +kernel
  have hhead : lex "(int qtKey, int qtModifiers, const QString& text) \x7b"
      = lex "(int qtKey, int qtModifiers, const QString& text)" ++ lex "\x7b" := by
    decide +kernel
  have hgroup : functionTokens name platform t =
      lex "inline int" ++ ([.word name]
      ++ (lex "(int qtKey, int qtModifiers, const QString& text) \x7b"
      ++ (lex "if (text.size() == 1) \x7b switch (text.unicode()[0].unicode()) \x7b"
      ++ (((t.textCases.toList.filter fun p => CppHeader.isUnit p.1).flatMap textCaseTokens
        ++ lex "default: break; \x7d \x7d")
      ++ (lex "switch (qtKey) \x7b"
      ++ (t.entries.toList.flatMap (keyCaseTokens platform)
        ++ lex "default: return 0; \x7d \x7d")))))) := by
    simp only [functionTokens, headTokens, hopen, hhead, List.append_assoc]
  rw [hgroup]
  apply (Reads.expect _).bind
  apply (Reads.name hname).bind
  apply (Reads.expect _).bind
  apply (Reads.expect _).bind
  refine (Reads.manyUntil (fun p _ => reads_textCase p) ?_ ?_).bind ?_
  · intro _ _
    exact List.cons_ne_nil _ _
  · intro _ _ _
    rfl
  apply (Reads.expect _).bind
  refine (Reads.manyUntil (fun e he => reads_keyCase platform (hnames e he)) ?_ ?_).map
  · intro _ _
    exact List.cons_ne_nil _ _
  · intro _ _ _
    rfl

end CppFunction

end KeyDispatch
