import KeyDispatch.Proofs.CppTokens

/-!
# Lines of the generated C++ header

The lines of a rendered header as tokens, directives included. The header's characters are these
lines (`CppFunction.lexes_render`), which is proved piece by piece like the lines themselves are put
together: statements, blocks, cases, the function, the include guard.
-/

namespace KeyDispatch

namespace CppFunction

open Token Preprocessor

/-! ## Lines -/

/-- Tokens of the condition on a platform, behind the number sign. -/
def conditionTokens : Platform → List Token
  | .macOS => lex "if defined(Q_OS_OSX)"
  | .other => lex "if !defined(Q_OS_OSX)"

/-- Lines of a block that takes one of two branches by platform. -/
def blockLines (target : Platform) (first second : List (List Token)) : List (List Token) :=
  [.sign '#' :: conditionTokens target] ++ (first ++ ([lex "#else"] ++ (second ++ [lex "#endif"])))

/-- Lines of a resolution's statement inside a block. -/
def statementLines : Resolution → List (List Token)
  | .fixed keysym => [returnTokens keysym]
  | .shift lower upper => [choiceTokens .shift upper lower]
  | .keypad plain onKeypad => [choiceTokens .keypad onKeypad plain]
  | .swapped normal exchanged target =>
    [[]] ++ (blockLines target (statementLines exchanged) (statementLines normal) ++ [[]])

/-- Lines of the case of an entry. -/
def keyCaseLines (e : Entry) : List (List Token) :=
  match e.resolution with
  | .swapped normal exchanged target =>
    [labelTokens e] ++ blockLines target (statementLines exchanged) (statementLines normal)
  | .fixed keysym => [labelTokens e ++ returnTokens keysym]
  | .shift lower upper => [labelTokens e ++ choiceTokens .shift upper lower]
  | .keypad plain onKeypad => [labelTokens e ++ choiceTokens .keypad onKeypad plain]

/-- Lines of the function. -/
def functionLines (name : String) (t : DecisionTable) : List (List Token) :=
  [headTokens name]
    ++ ([lex "\x7b", lex "if (text.size() == 1) \x7b",
      lex "switch (text.unicode()[0].unicode()) \x7b"]
    ++ ((t.textCases.toList.filter fun p => CppHeader.isUnit p.1).flatMap
      (fun p => [textCaseTokens p])
    ++ ([lex "default: break;", lex "\x7d", lex "\x7d", lex "switch (qtKey) \x7b"]
    ++ (t.entries.toList.flatMap keyCaseLines
    ++ [lex "default: return 0;", lex "\x7d", lex "\x7d"]))))

/-- Lines of the include guard and of the includes. -/
def includeLines (guardName : String) : List (List Token) :=
  [[.sign '#', .word "ifndef", .word guardName], [.sign '#', .word "define", .word guardName], [],
    lex "#include <QtCore/qnamespace.h>", lex "#include <QtCore/qstring.h>", []]

/-- Lines of a header. The opening comment leaves two of them blank. -/
def headerLines (h : CppHeader) (t : DecisionTable) : List (List Token) :=
  [[], []] ++ (includeLines h.includeGuard ++ (functionLines h.functionName t ++ [lex "#endif"]))

/-! ## The characters are the lines -/

theorem lexes_return (keysym : Keysym) :
    Lexes ("return ".toList ++ (keysym.text.toList ++ ";".toList)) (returnTokens keysym) := by
  have hreturn : Lexes "return ".toList (lex "return") := by decide
  have hend : Lexes ";".toList (lex ";") := by decide
  exact hreturn.append (hend.hexText 4 keysym.code.toNat rfl)

theorem lexes_modifierChoice (m : Modifier) (set unset : Keysym) :
    Lexes (CppHeader.modifierChoice m set unset).toList (choiceTokens m set unset) := by
  have hif : Lexes ("if (qtModifiers & ".toList ++ (m.enumerator.toList ++ ") \x7b ".toList))
      (lex "if (qtModifiers & Qt::" ++ ([.word (modifierName m)] ++ lex ") \x7b")) := by
    cases m <;> decide
  have helse : Lexes " \x7d else \x7b ".toList (lex "\x7d else \x7b") := by decide
  have hend : Lexes " \x7d".toList (lex "\x7d") := by decide
  -- the pieces are cut around the two statements
  have hopen : ") \x7b return ".toList = ") \x7b ".toList ++ "return ".toList := by decide
  have hmiddle : "; \x7d else \x7b return ".toList
      = ";".toList ++ (" \x7d else \x7b ".toList ++ "return ".toList) := by decide
  have hclose : "; \x7d".toList = ";".toList ++ " \x7d".toList := by decide
  have hall := hif.append ((lexes_return set).append
    (helse.append ((lexes_return unset).append hend)))
  unfold CppHeader.modifierChoice choiceTokens
  simp only [-String.reduceToList, String.toList_append, List.append_assoc, hopen, hmiddle,
    hclose] at hall ⊢
  exact hall

/-- A block is its lines where the statements of its branches are. -/
theorem lexes_platformBlock (target : Platform) {exchanged normal : String}
    {first second : List (List Token)}
    (hfirst : Lexes (CppHeader.blockIndent.toList ++ (exchanged.toList ++ ['\n'])) (ofLines first))
    (hsecond : Lexes (CppHeader.blockIndent.toList ++ (normal.toList ++ ['\n']))
      (ofLines second)) :
    Lexes ((CppHeader.platformBlock target exchanged normal).toList ++ ['\n'])
      (ofLines (blockLines target first second)) := by
  have hif : Lexes ("#if ".toList ++ ((CppHeader.platformCondition target).toList ++ ['\n']))
      (ofLines [.sign '#' :: conditionTokens target]) := by
    cases target <;> decide
  have helse : Lexes "#else\n".toList (ofLines [lex "#else"]) := by decide
  have hend : Lexes ("#endif".toList ++ ['\n']) (ofLines [lex "#endif"]) := by decide
  -- each branch takes the line end behind it, so the directives start lines
  have hnewline : "\n".toList = ['\n'] := rfl
  have hmiddle : "\n#else\n".toList = ['\n'] ++ "#else\n".toList := by decide
  have hclose : "\n#endif".toList = ['\n'] ++ "#endif".toList := by decide
  have hall := hif.append (hfirst.append (helse.append (hsecond.append hend)))
  unfold CppHeader.platformBlock blockLines
  simp only [-String.reduceToList, String.toList_append, List.append_assoc, hnewline, hmiddle,
    hclose, ofLines, List.flatMap_append] at hall ⊢
  exact hall

/-- The statement of a resolution inside a block is its lines, by induction on the resolution: a
choice by platform is a block of its own between two blank lines. -/
theorem lexes_statement (r : Resolution) :
    Lexes (CppHeader.blockIndent.toList ++ ((CppHeader.statement r).toList ++ ['\n']))
      (ofLines (statementLines r)) := by
  have hindent : Lexes CppHeader.blockIndent.toList [] := by decide
  have hmodifier : ∀ m set unset, Lexes (CppHeader.blockIndent.toList ++
      ((CppHeader.modifierChoice m set unset).toList ++ ['\n']))
      (ofLines [choiceTokens m set unset]) := by
    intro m set unset
    exact hindent.append ((lexes_modifierChoice m set unset).append .lineEnd)
  induction r with
  | fixed keysym =>
    have hall := hindent.append ((lexes_return keysym).append .lineEnd)
    unfold CppHeader.statement statementLines
    simp only [-String.reduceToList, String.toList_append, List.append_assoc] at hall ⊢
    exact hall
  | shift lower upper => exact hmodifier .shift upper lower
  | keypad plain onKeypad => exact hmodifier .keypad onKeypad plain
  | swapped normal exchanged target ihn ihe =>
    have hblock := lexes_platformBlock target ihe ihn
    -- the indent and the line end before and after the block are the blank lines
    have hall := (hindent.append .lineEnd).append (hblock.append .lineEnd)
    unfold CppHeader.statement statementLines
    simp only [-String.reduceToList, String.toList_append, List.append_assoc, ofLines,
      List.flatMap_append] at hall ⊢
    exact hall

theorem lexes_textCase (p : UInt32 × Keysym) :
    Lexes (Artifact.textOfLines [CppHeader.textCase p.1 p.2]).toList
      (ofLines [textCaseTokens p]) := by
  have hcase : Lexes "      case ".toList (lex "case") := by decide
  have hcolon : Lexes ": ".toList (lex ":") := by decide
  have hreturn : ": return ".toList = ": ".toList ++ "return ".toList := by decide
  have hbody := hcolon.append ((lexes_return p.2).append .lineEnd)
  have hall := hcase.append (hbody.hexText 4 p.1.toNat (by rfl))
  rw [toList_textOfLines_singleton]
  unfold CppHeader.textCase textCaseTokens
  simp only [-String.reduceToList, String.toList_append, List.append_assoc, hreturn, ofLines,
    List.flatMap_singleton] at hall ⊢
  exact hall

/-- The label of an entry is its tokens, and what follows it is what it was. -/
theorem lexes_label {e : Entry} (h : IsIdentifier e.constant) {b : List Char} {us : List Token}
    (hb : Lexes b us) :
    Lexes ("    case Qt::Key_".toList ++ (e.name.toList ++ (":".toList ++ b)))
      (labelTokens e ++ us) := by
  have hsplit : "    case Qt::Key_".toList = "    case Qt::".toList ++ "Key_".toList := by
    decide
  have hcase : Lexes "    case Qt::".toList (lex "case Qt::") := by decide
  have hcolon : Lexes ":".toList (lex ":") := by decide
  have hall := hcase.append ((hcolon.append hb).name h (by rfl))
  unfold labelTokens
  rw [hsplit, List.append_assoc, e.append_toList_name, List.append_assoc, List.append_assoc]
  exact hall

theorem lexes_keyCase {e : Entry} (h : IsIdentifier e.constant) :
    Lexes (Artifact.textOfLines (CppHeader.keyCase e)).toList (ofLines (keyCaseLines e)) := by
  have hspace : Lexes " ".toList [] := by decide
  have hcolon : ": ".toList = ":".toList ++ " ".toList := by decide
  -- a statement without directives stands on the line of its label
  have hline : ∀ (text : String) (ts : List Token), Lexes text.toList ts →
      Lexes (Artifact.textOfLines ["    case Qt::Key_" ++ e.name ++ ": " ++ text]).toList
        (ofLines [labelTokens e ++ ts]) := by
    intro text ts ht
    have hall := lexes_label h (hspace.append (ht.append .lineEnd))
    rw [toList_textOfLines_singleton]
    simp only [-String.reduceToList, String.toList_append, List.append_assoc, hcolon, ofLines,
      List.flatMap_singleton, List.nil_append] at hall ⊢
    exact hall
  unfold CppHeader.keyCase keyCaseLines
  cases e.resolution with
  | fixed keysym =>
    apply hline _ _
    have hreturn := lexes_return keysym
    unfold CppHeader.statement
    simp only [-String.reduceToList, String.toList_append, List.append_assoc] at hreturn ⊢
    exact hreturn
  | shift lower upper => exact hline _ _ (lexes_modifierChoice .shift upper lower)
  | keypad plain onKeypad => exact hline _ _ (lexes_modifierChoice .keypad onKeypad plain)
  | swapped normal exchanged target =>
    -- a choice by platform begins on the line after its label
    have hblock := lexes_platformBlock target (lexes_statement exchanged) (lexes_statement normal)
    have hall := lexes_label h (Lexes.lineEnd.append hblock)
    simp only [-String.reduceToList, toList_textOfLines, List.flatMap_cons, List.flatMap_nil,
      String.toList_append, List.append_assoc, ofLines, List.flatMap_append,
      List.append_nil] at hall ⊢
    exact hall

theorem lexes_includes {guardName : String} (h : IsIdentifier guardName) :
    Lexes (Artifact.textOfLines (CppHeader.includes guardName)).toList
      (ofLines (includeLines guardName)) := by
  have hifndef : Lexes "#ifndef ".toList [.sign '#', .word "ifndef"] := by decide
  have hdefine : Lexes "#define ".toList [.sign '#', .word "define"] := by decide
  have hrest : Lexes (Artifact.textOfLines ["", "#include <QtCore/qnamespace.h>",
      "#include <QtCore/qstring.h>", ""]).toList (ofLines [[],
      lex "#include <QtCore/qnamespace.h>", lex "#include <QtCore/qstring.h>", []]) :=
    .of_lines (by decide)
  have hall := (hifndef.append (Lexes.lineEnd.name h rfl)).append
    ((hdefine.append (Lexes.lineEnd.name h rfl)).append hrest)
  unfold CppHeader.includes includeLines
  simp only [-String.reduceToList, toList_textOfLines, List.flatMap_cons, List.flatMap_nil,
    String.toList_append, List.append_assoc, ofLines, List.append_nil, List.cons_append,
    List.nil_append] at hall ⊢
  exact hall

theorem lexes_functionHead {name : String} (h : IsIdentifier name) :
    Lexes (Artifact.textOfLines (CppHeader.functionHead name)).toList
      (ofLines [headTokens name, lex "\x7b", lex "if (text.size() == 1) \x7b",
        lex "switch (text.unicode()[0].unicode()) \x7b"]) := by
  have hinline : Lexes "inline int ".toList (lex "inline int") := by decide
  have hparameters : Lexes ("(int qtKey, int qtModifiers, const QString& text)".toList ++ ['\n'])
      (lex "(int qtKey, int qtModifiers, const QString& text)" ++ [.lineEnd]) := by decide
  have hrest : Lexes (Artifact.textOfLines ["\x7b", "  if (text.size() == 1) \x7b",
      "    switch (text.unicode()[0].unicode()) \x7b"]).toList (ofLines [lex "\x7b",
      lex "if (text.size() == 1) \x7b", lex "switch (text.unicode()[0].unicode()) \x7b"]) :=
    .of_lines (by decide)
  have hall := (hinline.append (hparameters.name h (by rfl))).append hrest
  unfold CppHeader.functionHead headTokens
  simp only [-String.reduceToList, toList_textOfLines, List.flatMap_cons, List.flatMap_nil,
    String.toList_append, List.append_assoc, ofLines, List.append_nil, List.cons_append] at hall ⊢
  exact hall

/-- The characters of a table's header are its lines. -/
theorem lexes_render {h : CppHeader} {t : DecisionTable} (hname : IsIdentifier h.functionName)
    (hguard : IsIdentifier h.includeGuard)
    (hnames : ∀ e ∈ t.entries.toList, IsIdentifier e.constant) :
    Lexes (h.render t).toList (ofLines (headerLines h t)) := by
  have hbanner : Lexes (Artifact.textOfLines CppHeader.banner).toList (ofLines [[], []]) :=
    .of_lines (by decide +kernel)
  have htexts := textOfLines_flatMap Lexes.nil Lexes.append
    fun p (_ : p ∈ t.textCases.toList.filter fun p => CppHeader.isUnit p.1) => lexes_textCase p
  have htextEnd : Lexes (Artifact.textOfLines CppHeader.textEnd).toList
      (ofLines [lex "default: break;", lex "\x7d", lex "\x7d"]) := .of_lines (by decide)
  have hswitch : Lexes (Artifact.textOfLines ["  switch (qtKey) \x7b"]).toList
      (ofLines [lex "switch (qtKey) \x7b"]) := .of_lines (by decide)
  have hkeys := textOfLines_flatMap Lexes.nil Lexes.append fun e he => lexes_keyCase (hnames e he)
  have hend : Lexes (Artifact.textOfLines ["    default: return 0;", "  \x7d", "\x7d",
      "#endif"]).toList (ofLines [lex "default: return 0;", lex "\x7d", lex "\x7d",
      lex "#endif"]) := .of_lines (by decide)
  -- the parts in the order of the lines
  have hall := hbanner.append ((lexes_includes hguard).append ((lexes_functionHead hname).append
    (htexts.append (htextEnd.append (hswitch.append (hkeys.append hend))))))
  unfold CppHeader.render CppHeader.lines CppHeader.keySwitch headerLines functionLines
  simp only [toList_textOfLines_append, List.map_eq_flatMap]
  simp only [List.append_assoc, ofLines, List.flatMap_append, List.flatMap_cons, List.flatMap_nil,
    List.flatMap_assoc, List.append_nil, List.cons_append, List.nil_append] at hall ⊢
  exact hall

end CppFunction

end KeyDispatch
