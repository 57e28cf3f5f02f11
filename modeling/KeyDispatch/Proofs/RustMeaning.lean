import KeyDispatch.Overrides.Builtin
import KeyDispatch.Proofs.RustProgram

/-!
# Meaning of the generated Rust module

The text that is rendered for a table reads back as the program of the table
(`RustProgram.read?_render`), whatever identifier the function bears, and the program answers
every key event as the table does (`rustModule_implements`). The reading goes piece by piece: the
characters of a piece are its tokens, and the reader of the piece takes exactly these tokens.
-/

namespace KeyDispatch

namespace RustProgram

open Token Reader

/-! ## Tokens -/

/-- Tokens of a declaration. -/
def declarationTokens (constant : String) (width : Nat) (value : UInt32) : List Token :=
  lex "pub const" ++ ([.word constant] ++ (lex ": u32 =" ++
    ([.word (Text.hexText width value.toNat)] ++ lex ";")))

/-- Tokens of the condition on a modifier. -/
def maskTokens : Modifier → List Token
  | .shift => lex "qt_modifiers & SHIFT_MODIFIER != 0"
  | .keypad => lex "qt_modifiers & KEYPAD_MODIFIER != 0"

/-- Tokens of the condition on the platform. -/
def platformTokens : Platform → List Token
  | .macOS => lex "cfg!(target_os = \"macos\")"
  | .other => lex "cfg!(not(target_os = \"macos\"))"

/-- Tokens of a choice. -/
def choiceTokens (condition set unset : List Token) : List Token :=
  [.word "if"] ++ (condition ++ (lex "\x7b" ++ (set ++ (lex "\x7d else \x7b" ++
    (unset ++ lex "\x7d")))))

/-- Tokens of a resolution's expression. -/
def expressionTokens : Resolution → List Token
  | .fixed keysym => [.word keysym.text]
  | .shift lower upper => choiceTokens (maskTokens .shift) [.word upper.text] [.word lower.text]
  | .keypad plain onKeypad =>
    choiceTokens (maskTokens .keypad) [.word onKeypad.text] [.word plain.text]
  | .swapped normal exchanged platform =>
    choiceTokens (platformTokens platform) (expressionTokens exchanged) (expressionTokens normal)

/-- Tokens of what an arm yields. -/
def armBodyTokens : Resolution → List Token
  | .fixed keysym => [.word keysym.text] ++ lex ","
  | other => lex "\x7b" ++ (expressionTokens other ++ lex "\x7d")

/-- Tokens of the arm of a character. -/
def textArmTokens (p : UInt32 × Keysym) : List Token :=
  [.word (Text.hexText 4 p.1.toNat)] ++ (lex "=> return" ++ ([.word p.2.text] ++ lex ","))

/-- Tokens of the arm of an entry. -/
def keyArmTokens (e : Entry) : List Token :=
  lex "qt_key::" ++ ([.word e.constant] ++ (lex "=>" ++ armBodyTokens e.resolution))

/-! ## The readers take the tokens -/

theorem reads_declaration {constant : String} (h : IsIdentifier constant) (width : Nat)
    (value : UInt32) :
    Reads declaration (declarationTokens constant width value) (constant, value) := by
  apply (Reads.expect _).bind
  apply (Reads.name h).bind
  apply (Reads.expect _).bind
  apply (Reads.number (numeral?_hexText width value)).bind
  exact (Reads.expect _).map

theorem reads_maskCondition (m : Modifier) :
    Reads condition (maskTokens m) (.mask m.constant) := by
  cases m <;> exact fun _ => rfl

theorem reads_platformCondition (p : Platform) :
    Reads condition (platformTokens p) (.platform p) := by
  cases p <;> exact fun _ => rfl

theorem reads_literal (depth : Nat) (keysym : Keysym) :
    Reads (expressionWithin (depth + 1)) [.word keysym.text] (.literal keysym.code) := by
  have hread := numeral?_hexText 4 keysym.code
  show Reads (expressionWithin (depth + 1)) ([.word keysym.text] ++ []) (.literal keysym.code)
  apply (Reads.word keysym.text).bind
  rw [Keysym.text, hread]
  exact Reads.pure _

theorem reads_choice {depth : Nat} {c s u : List Token} {condition' : RustCondition}
    {set unset : RustExpression} (hc : Reads condition c condition')
    (hset : Reads (expressionWithin depth) s set)
    (hunset : Reads (expressionWithin depth) u unset) :
    Reads (expressionWithin (depth + 1)) (choiceTokens c s u) (.choice condition' set unset) := by
  have hif : numeral? "if" = none := by decide
  -- the word is no number, so the choice is read
  apply (Reads.word "if").bind
  rw [hif]
  apply hc.bind
  apply (Reads.expect _).bind
  apply hset.bind
  apply (Reads.expect _).bind
  apply hunset.bind
  exact (Reads.expect _).map

/-- The tokens of a resolution read as its expression, by induction on the resolution. A choice has
more tokens than either side, so the depth suffices for both. -/
theorem reads_expressionWithin (r : Resolution) {depth : Nat}
    (h : (expressionTokens r).length ≤ depth) :
    Reads (expressionWithin depth) (expressionTokens r) (.ofResolution r) := by
  -- the word that opens a choice and a brace stand beside its sides
  have hlength : ∀ c s u : List Token,
      s.length + u.length + 2 ≤ (choiceTokens c s u).length := by
    intro c s u
    have hopen : (lex "\x7b").length = 1 := rfl
    simp only [choiceTokens, List.length_append, hopen, List.length_singleton]
    omega
  induction r generalizing depth with
  | fixed keysym =>
    obtain ⟨depth, rfl⟩ := Nat.exists_eq_add_of_le' (show 1 ≤ depth from h)
    exact reads_literal depth keysym
  | shift lower upper =>
    have hpos := (hlength (maskTokens .shift) [.word upper.text] [.word lower.text]).trans h
    obtain ⟨depth, rfl⟩ := Nat.exists_eq_add_of_le' (show 2 ≤ depth by simp at hpos; omega)
    exact reads_choice (reads_maskCondition .shift) (reads_literal depth upper)
      (reads_literal depth lower)
  | keypad plain onKeypad =>
    have hpos := (hlength (maskTokens .keypad) [.word onKeypad.text] [.word plain.text]).trans h
    obtain ⟨depth, rfl⟩ := Nat.exists_eq_add_of_le' (show 2 ≤ depth by simp at hpos; omega)
    exact reads_choice (reads_maskCondition .keypad) (reads_literal depth onKeypad)
      (reads_literal depth plain)
  | swapped normal exchanged platform ihn ihe =>
    have hpos := (hlength (platformTokens platform) (expressionTokens exchanged)
      (expressionTokens normal)).trans h
    obtain ⟨depth, rfl⟩ := Nat.exists_eq_add_of_le' (show 1 ≤ depth by omega)
    -- both sides are shorter than the choice
    exact reads_choice (reads_platformCondition platform) (ihe (by omega)) (ihn (by omega))

theorem reads_expression (r : Resolution) :
    Reads expression (expressionTokens r) (.ofResolution r) := by
  intro rest
  have hlength : (expressionTokens r).length ≤ (expressionTokens r ++ rest).length := by
    rw [List.length_append]
    omega
  exact reads_expressionWithin r hlength rest

theorem reads_armBody (r : Resolution) : Reads armBody (armBodyTokens r) (.ofResolution r) := by
  have hblock : Reads armBody (lex "\x7b" ++ (expressionTokens r ++ lex "\x7d"))
      (.ofResolution r) := by
    apply Reads.orElse_left
    apply (Reads.expect _).bind
    apply (reads_expression r).bind
    exact (Reads.expect _).map
  cases r with
  | fixed keysym =>
    apply Reads.orElse_right (fun _ => rfl)
    apply (reads_expression (.fixed keysym)).bind
    exact (Reads.expect _).map
  | shift lower upper => exact hblock
  | keypad plain onKeypad => exact hblock
  | swapped normal exchanged platform => exact hblock

theorem reads_textArm (p : UInt32 × Keysym) :
    Reads textArm (textArmTokens p) (p.1, p.2.code) := by
  apply (Reads.number (numeral?_hexText 4 p.1)).bind
  apply (Reads.expect _).bind
  apply (Reads.number (numeral?_hexText 4 p.2.code)).bind
  exact (Reads.expect _).map

theorem reads_keyArm {e : Entry} (h : IsIdentifier e.constant) :
    Reads keyArm (keyArmTokens e) (e.constant, .ofResolution e.resolution) := by
  apply (Reads.expect _).bind
  apply (Reads.name h).bind
  apply (Reads.expect _).bind
  exact (reads_armBody e.resolution).map

/-- The constants of every program, with the widths of their numbers. -/
def commonDeclarations : List (String × Nat × UInt32) :=
  [(Modifier.shift.constant, 8, Modifier.shift.mask),
    (Modifier.keypad.constant, 8, Modifier.keypad.mask), ("NO_KEYSYM", 4, Keysym.none.code)]

/-- Tokens of the program's head, from the start to the match on the character. -/
def headTokens (functionName : String) (entries : List Entry) : List Token :=
  commonDeclarations.flatMap (fun d => declarationTokens d.1 d.2.1 d.2.2)
    ++ (lex "#[allow(non_upper_case_globals, dead_code)] pub mod qt_key \x7b"
    ++ (entries.flatMap (fun e => declarationTokens e.constant 1 e.toolkitCode)
    ++ (lex "\x7d"
    ++ (lex "#[allow(unreachable_patterns, unused_variables)] pub fn"
    ++ ([.word functionName] ++ (lex "(qt_key: u32, qt_modifiers: u32, text: &str) -> u32 \x7b"
    ++ (lex "let mut chars = text.chars();"
    ++ (lex "if let (Some(c), None) = (chars.next(), chars.next()) \x7b"
    ++ lex "match u32::from(c) \x7b"))))))))

/-- Tokens of the program's two matches. -/
def matchTokens (t : DecisionTable) : List Token :=
  t.textCases.toList.flatMap textArmTokens ++ (lex "_ => \x7b\x7d \x7d \x7d"
    ++ (lex "match qt_key \x7b" ++ (t.entries.toList.flatMap keyArmTokens
    ++ (lex "_ =>" ++ ([.word "NO_KEYSYM"] ++ lex ", \x7d \x7d")))))

/-- The tokens of a table read as its program. -/
theorem reads_program {name : String} {t : DecisionTable} (hname : IsIdentifier name)
    (hnames : ∀ e ∈ t.entries.toList, IsIdentifier e.constant) :
    Reads program (headTokens name t.entries.toList ++ matchTokens t) (ofTable name t) := by
  -- every list of items stands with the tokens that end it
  have hgroup : headTokens name t.entries.toList ++ matchTokens t =
      (commonDeclarations.flatMap (fun d => declarationTokens d.1 d.2.1 d.2.2)
        ++ lex "#[allow(non_upper_case_globals, dead_code)] pub mod qt_key \x7b")
      ++ ((t.entries.toList.flatMap (fun e => declarationTokens e.constant 1 e.toolkitCode)
        ++ lex "\x7d")
      ++ (lex "#[allow(unreachable_patterns, unused_variables)] pub fn"
      ++ ([.word name] ++ (lex "(qt_key: u32, qt_modifiers: u32, text: &str) -> u32 \x7b"
      ++ (lex "let mut chars = text.chars();"
      ++ (lex "if let (Some(c), None) = (chars.next(), chars.next()) \x7b"
      ++ (lex "match u32::from(c) \x7b"
      ++ ((t.textCases.toList.flatMap textArmTokens ++ lex "_ => \x7b\x7d \x7d \x7d")
      ++ (lex "match qt_key \x7b"
      ++ ((t.entries.toList.flatMap keyArmTokens ++ lex "_ =>")
      ++ ([.word "NO_KEYSYM"] ++ lex ", \x7d \x7d"))))))))))) := by
    simp only [headTokens, matchTokens, List.append_assoc]
  have hidentifier : ∀ d ∈ commonDeclarations, IsIdentifier d.1 := by decide
  have hcommon : ∀ d ∈ commonDeclarations,
      Reads declaration (declarationTokens d.1 d.2.1 d.2.2) (d.1, d.2.2) :=
    fun d hd => reads_declaration (hidentifier d hd) d.2.1 d.2.2
  have hcodes : ∀ e ∈ t.entries.toList,
      Reads declaration (declarationTokens e.constant 1 e.toolkitCode)
        (e.constant, e.toolkitCode) :=
    fun e he => reads_declaration (hnames e he) 1 e.toolkitCode
  have hotherwise : Reads expression [.word "NO_KEYSYM"] (.constant "NO_KEYSYM") := fun _ => rfl
  rw [hgroup]
  refine (Reads.manyUntil hcommon ?_ ?_).bind ?_
  · intro _ _
    exact List.cons_ne_nil _ _
  · intro _ _ _
    rfl
  refine (Reads.manyUntil hcodes ?_ ?_).bind ?_
  · intro _ _
    exact List.cons_ne_nil _ _
  · intro _ _ _
    rfl
  apply (Reads.expect _).bind
  apply (Reads.name hname).bind
  apply (Reads.expect _).bind
  apply (Reads.expect _).bind
  apply (Reads.expect _).bind
  apply (Reads.expect _).bind
  refine (Reads.manyUntil (fun p _ => reads_textArm p) ?_ ?_).bind ?_
  · intro _ _
    exact List.cons_ne_nil _ _
  · intro p _ rest
    -- an arm begins with a number, the last arm does not
    have hne : numeral? "_" = none := by decide
    exact expect_eq_none (fun h => hexText_ne hne 4 p.1 (Token.word.inj h)) _ _
  apply (Reads.expect _).bind
  refine (Reads.manyUntil (fun e he => reads_keyArm (hnames e he)) ?_ ?_).bind ?_
  · intro _ _
    exact List.cons_ne_nil _ _
  · intro _ _ _
    rfl
  apply hotherwise.bind
  exact (Reads.expect _).map

/-! ## The characters are the tokens -/

theorem codes_keyConstant {e : Entry} (h : IsIdentifier e.constant) :
    Codes (Artifact.textOfLines [RustModule.keyConstant e]).toList
      (declarationTokens e.constant 1 e.toolkitCode) := by
  have hsplit : "    pub const Key_".toList = "    pub const ".toList ++ "Key_".toList := by
    decide
  have hconst : Codes "    pub const ".toList (lex "pub const") := .of_run (by decide)
  have htype : Codes ": u32 = ".toList (lex ": u32 =") := .of_run (by decide)
  have hend : Codes (";".toList ++ ['\n']) (lex ";") := .of_run (by decide)
  have hvalue := htype.append (hend.hexText 1 e.toolkitCode.toNat rfl)
  rw [toList_textOfLines_singleton]
  unfold RustModule.keyConstant
  simp only [-String.reduceToList, String.toList_append, List.append_assoc]
  rw [hsplit, List.append_assoc, e.append_toList_name]
  exact hconst.append (hvalue.name h rfl)

theorem codes_modifierConstant (m : Modifier) :
    Codes (Artifact.textOfLines (RustModule.modifierConstant m)).toList
      (declarationTokens m.constant 8 m.mask) := by
  cases m <;> exact .of_run_lines (by decide)

theorem codes_noKeysymConstant :
    Codes (Artifact.textOfLines RustModule.noKeysymConstant).toList
      (declarationTokens "NO_KEYSYM" 4 Keysym.none.code) :=
  .of_run_lines (by decide +kernel)

theorem codes_textArm (p : UInt32 × Keysym) :
    Codes (Artifact.textOfLines [RustModule.textArm p.1 p.2]).toList (textArmTokens p) := by
  have hindent : Codes "            ".toList [] := .of_run (by decide)
  have hreturn : Codes " => return ".toList (lex "=> return") := .of_run (by decide)
  have hend : Codes (",".toList ++ ['\n']) (lex ",") := .of_run (by decide)
  have harm := hreturn.append (hend.hexText 4 p.2.code.toNat rfl)
  rw [toList_textOfLines_singleton]
  unfold RustModule.textArm
  simp only [-String.reduceToList, String.toList_append, List.append_assoc]
  exact hindent.append (harm.hexText 4 p.1.toNat rfl)

/-- A text that may end inside a word is the tokens, wherever a word ends behind it. -/
def CodesBefore (text : String) (ts : List Token) : Prop :=
  ∀ ⦃b us⦄, breaksWord b → Codes b us → Codes (text.toList ++ b) (ts ++ us)

theorem codesBefore_keysym (keysym : Keysym) : CodesBefore keysym.text [.word keysym.text] :=
  fun _ _ hb h => h.hexText 4 keysym.code.toNat hb

theorem codesBefore_choice {condition set unset : String} {c s u : List Token}
    (hc : Codes (condition.toList ++ " \x7b ".toList) (c ++ lex "\x7b"))
    (hset : CodesBefore set s) (hunset : CodesBefore unset u) :
    CodesBefore ("if " ++ condition ++ " \x7b " ++ set ++ " \x7d else \x7b " ++ unset ++ " \x7d")
      (choiceTokens c s u) := by
  intro b us _ h
  have hif : Codes "if ".toList [.word "if"] := .of_run (by decide)
  have helse : Codes " \x7d else \x7b ".toList (lex "\x7d else \x7b") := .of_run (by decide)
  have hend : Codes " \x7d".toList (lex "\x7d") := .of_run (by decide)
  -- from the last piece to the first, each word ended by the piece behind it
  have hunset' := hunset (by rfl) (hend.append h)
  have hset' := hset (by rfl) (helse.append hunset')
  have hall := hif.append (hc.append hset')
  unfold choiceTokens
  simp only [-String.reduceToList, String.toList_append, List.append_assoc] at hall ⊢
  exact hall

theorem codesBefore_modifierChoice (m : Modifier) (set unset : Keysym) :
    CodesBefore (RustModule.modifierChoice m set unset)
      (choiceTokens (maskTokens m) [.word set.text] [.word unset.text]) := by
  have htext : RustModule.modifierChoice m set unset = "if " ++ ("qt_modifiers & " ++ m.constant
      ++ " != 0") ++ " \x7b " ++ set.text ++ " \x7d else \x7b " ++ unset.text ++ " \x7d" := by
    -- the pieces are cut where the condition begins and ends
    have hif : "if qt_modifiers & " = "if " ++ "qt_modifiers & " := by decide
    have hopen : " != 0 \x7b " = " != 0" ++ " \x7b " := by decide
    unfold RustModule.modifierChoice
    simp only [hif, hopen, String.append_assoc]
  have hcondition : Codes (("qt_modifiers & " ++ m.constant ++ " != 0").toList ++ " \x7b ".toList)
      (maskTokens m ++ lex "\x7b") := by
    cases m <;> exact .of_run (by decide)
  rw [htext]
  exact codesBefore_choice hcondition (codesBefore_keysym set) (codesBefore_keysym unset)

theorem codesBefore_expression (r : Resolution) :
    CodesBefore (RustModule.expression r) (expressionTokens r) := by
  induction r with
  | fixed keysym => exact codesBefore_keysym keysym
  | shift lower upper => exact codesBefore_modifierChoice .shift upper lower
  | keypad plain onKeypad => exact codesBefore_modifierChoice .keypad onKeypad plain
  | swapped normal exchanged platform ihn ihe =>
    refine codesBefore_choice ?_ ihe ihn
    cases platform <;> exact .of_run (by decide)

theorem codes_keyArm {e : Entry} (h : IsIdentifier e.constant) :
    Codes (Artifact.textOfLines (RustModule.keyArm e)).toList (keyArmTokens e) := by
  have hsplit : "        qt_key::Key_".toList = "        qt_key::".toList ++ "Key_".toList := by
    decide
  have hmodule : Codes "        qt_key::".toList (lex "qt_key::") := .of_run (by decide)
  -- all but a plain keysym stand in a block of three lines
  have hblock : ∀ r, Codes (Artifact.textOfLines ["        qt_key::Key_" ++ e.name ++ " => \x7b",
      "            " ++ RustModule.expression r, "        \x7d"]).toList
      (lex "qt_key::" ++ ([.word e.constant] ++ (lex "=>" ++ (lex "\x7b" ++
        (expressionTokens r ++ lex "\x7d"))))) := by
    intro r
    have hopen : Codes (" => \x7b".toList ++ '\n' :: "            ".toList)
        (lex "=>" ++ lex "\x7b") := .of_run (by decide)
    have hend : Codes ('\n' :: ("        \x7d".toList ++ ['\n'])) (lex "\x7d") :=
      .of_run (by decide)
    have hbody := hopen.append (codesBefore_expression r (by rfl) hend)
    have hall := hmodule.append (hbody.name h (by rfl))
    simp only [-String.reduceToList, toList_textOfLines, List.flatMap_cons, List.flatMap_nil,
      String.toList_append, List.append_assoc, List.cons_append, List.nil_append, List.append_nil,
      hsplit, Entry.append_toList_name] at hall ⊢
    exact hall
  unfold RustModule.keyArm keyArmTokens
  cases e.resolution with
  | fixed keysym =>
    have harrow : Codes " => ".toList (lex "=>") := .of_run (by decide)
    have hend : Codes (",".toList ++ ['\n']) (lex ",") := .of_run (by decide)
    have hvalue := harrow.append (hend.hexText 4 keysym.code.toNat rfl)
    have hall := hmodule.append (hvalue.name h (by rfl))
    simp only [-String.reduceToList, toList_textOfLines_singleton, String.toList_append,
      List.append_assoc, hsplit, Entry.append_toList_name] at hall ⊢
    exact hall
  | shift lower upper => exact hblock _
  | keypad plain onKeypad => exact hblock _
  | swapped normal exchanged platform => exact hblock _

theorem codes_keyConstants {entries : List Entry} (h : ∀ e ∈ entries, IsIdentifier e.constant) :
    Codes (Artifact.textOfLines (RustModule.keyConstants entries)).toList
      (lex "#[allow(non_upper_case_globals, dead_code)] pub mod qt_key \x7b"
        ++ (entries.flatMap (fun e => declarationTokens e.constant 1 e.toolkitCode)
        ++ lex "\x7d")) := by
  have hopen : Codes (Artifact.textOfLines ["/// `Qt::Key` values that have a keysym mapping.",
      "#[allow(non_upper_case_globals, dead_code)]", "pub mod qt_key \x7b"]).toList
      (lex "#[allow(non_upper_case_globals, dead_code)] pub mod qt_key \x7b") :=
    .of_run_lines (by decide +kernel)
  have hkeys := textOfLines_flatMap Codes.nil Codes.append fun e he => codes_keyConstant (h e he)
  have hend : Codes (Artifact.textOfLines ["\x7d", ""]).toList (lex "\x7d") :=
    .of_run_lines (by decide)
  unfold RustModule.keyConstants
  rw [toList_textOfLines_append, toList_textOfLines_append, List.map_eq_flatMap, List.append_assoc]
  exact hopen.append (hkeys.append hend)

theorem codes_functionHead {name : String} (h : IsIdentifier name) :
    Codes (Artifact.textOfLines (RustModule.functionHead name)).toList
      (lex "#[allow(unreachable_patterns, unused_variables)] pub fn" ++ ([.word name]
        ++ (lex "(qt_key: u32, qt_modifiers: u32, text: &str) -> u32 \x7b"
        ++ (lex "let mut chars = text.chars();"
        ++ (lex "if let (Some(c), None) = (chars.next(), chars.next()) \x7b"
        ++ lex "match u32::from(c) \x7b"))))) := by
  have hdoc : Codes (Artifact.textOfLines ["/// Map a Qt key event to an X11 keysym.", "///",
      "/// A `text` of exactly one character that has a keysym of its own takes",
      "/// precedence over `qt_key`.",
      "#[allow(unreachable_patterns, unused_variables)]"]).toList
      (lex "#[allow(unreachable_patterns, unused_variables)]") := .of_run_lines (by decide +kernel)
  have hfn : Codes "pub fn ".toList (lex "pub fn") := .of_run (by decide)
  have hparameters : Codes ("(qt_key: u32, qt_modifiers: u32, text: &str) -> u32 \x7b".toList
      ++ ['\n']) (lex "(qt_key: u32, qt_modifiers: u32, text: &str) -> u32 \x7b") :=
    .of_run (by decide)
  have hbody : Codes (Artifact.textOfLines ["    let mut chars = text.chars();",
      "    if let (Some(c), None) = (chars.next(), chars.next()) \x7b",
      "        match u32::from(c) \x7b"]).toList
      (lex "let mut chars = text.chars();"
        ++ (lex "if let (Some(c), None) = (chars.next(), chars.next()) \x7b"
        ++ lex "match u32::from(c) \x7b")) := .of_run_lines (by decide +kernel)
  -- the attribute is on the line before the function
  have hattribute : lex "#[allow(unreachable_patterns, unused_variables)] pub fn"
      = lex "#[allow(unreachable_patterns, unused_variables)]" ++ lex "pub fn" := by
    decide
  have hall := hdoc.append (hfn.append ((hparameters.append hbody).name h (by rfl)))
  unfold RustModule.functionHead
  simp only [-String.reduceToList, toList_textOfLines, List.flatMap_cons, List.flatMap_nil,
    String.toList_append, List.append_assoc, List.append_nil, hattribute] at hall ⊢
  exact hall

/-- The characters of a table's module are the tokens of its head and of its matches. -/
theorem codes_render {m : RustModule} {t : DecisionTable} (hm : IsIdentifier m.functionName)
    (hnames : ∀ e ∈ t.entries.toList, IsIdentifier e.constant) :
    Codes (m.render t).toList (headTokens m.functionName t.entries.toList ++ matchTokens t) := by
  have hbanner : Codes (Artifact.textOfLines RustModule.banner).toList [] :=
    .of_run_lines (by decide +kernel)
  have htext := textOfLines_flatMap Codes.nil Codes.append
    fun p (_ : p ∈ t.textCases.toList) => codes_textArm p
  have htextEnd : Codes (Artifact.textOfLines RustModule.textEnd).toList
      (lex "_ => \x7b\x7d \x7d \x7d") := .of_run_lines (by decide)
  have hmatch : Codes (Artifact.textOfLines ["    match qt_key \x7b"]).toList
      (lex "match qt_key \x7b") := .of_run_lines (by decide)
  have hkeys := textOfLines_flatMap Codes.nil Codes.append fun e he => codes_keyArm (hnames e he)
  have hend : Codes (Artifact.textOfLines ["        _ => NO_KEYSYM,", "    \x7d", "\x7d"]).toList
      (lex "_ =>" ++ ([.word "NO_KEYSYM"] ++ lex ", \x7d \x7d")) :=
    .of_run_lines (by decide)
  -- the parts in the order of the lines
  have hall := hbanner.append ((codes_modifierConstant .shift).append
    ((codes_modifierConstant .keypad).append (codes_noKeysymConstant.append
    ((codes_keyConstants hnames).append ((codes_functionHead hm).append
    (htext.append (htextEnd.append (hmatch.append (hkeys.append hend)))))))))
  unfold RustModule.render RustModule.lines RustModule.keyMatch headTokens commonDeclarations
    matchTokens
  simp only [toList_textOfLines_append, List.map_eq_flatMap, List.flatMap_cons, List.flatMap_nil,
    List.append_assoc, List.nil_append] at hall ⊢
  exact hall

/-- The text that is rendered for a table reads back as the program of the table. -/
theorem read?_render {m : RustModule} {t : DecisionTable} (hm : IsIdentifier m.functionName)
    (hnames : ∀ e ∈ t.entries.toList, IsIdentifier e.constant) :
    read? (m.render t) = some (ofTable m.functionName t) := by
  rw [read?, (codes_render hm hnames).code_lex_eq]
  exact (reads_program hm hnames).readAll?_eq

/-- The program is what the function of a table has to be: one constant for each entry, the arms in
the order of the table, and the table's answer to every key event. -/
structure Implements (p : RustProgram) (functionName : String) (t : DecisionTable) : Prop where
  functionName_eq : p.functionName = functionName
  constants_eq : p.constants =
    [("SHIFT_MODIFIER", 0x02000000), ("KEYPAD_MODIFIER", 0x20000000), ("NO_KEYSYM", 0)]
  keyConstants_eq : p.keyConstants =
    t.entries.toList.map fun e => ("Key_" ++ e.name, e.toolkitCode)
  textArms_eq : p.textArms = t.textCases.toList.map fun c => (c.1, c.2.code)
  keyArms_eq : p.keyArms.map (·.1) = t.entries.toList.map fun e => "Key_" ++ e.name
  wellScoped : p.WellScoped
  run_eq : ∀ key bits text platform, p.run key bits text platform =
    some ((t.dispatch key bits text platform).getD Keysym.none).code

theorem implements_ofTable {name : String} {t : DecisionTable}
    (hnames : (t.entries.toList.map (·.name)).Nodup) : (ofTable name t).Implements name t where
  functionName_eq := rfl
  constants_eq := rfl
  keyConstants_eq := rfl
  textArms_eq := rfl
  keyArms_eq := List.map_map ..
  wellScoped := wellScoped_ofTable hnames
  run_eq := run_ofTable hnames

end RustProgram

/-- The module rendered for the table of any headers reads back as a program that implements the
table, under any function name. -/
theorem rustModule_implements {sources : SourceTexts} {overrides : Overrides}
    {table : DecisionTable} (h : (buildTable sources overrides).outcome = .ok table)
    {name : String} (hname : Token.IsIdentifier name) :
    ∃ p, RustProgram.read? (RustModule.render ⟨name⟩ table) = some p ∧
      p.Implements name table := by
  obtain ⟨toolkit, -, hlists⟩ := exists_lists_of_buildTable h
  refine ⟨RustProgram.ofTable name table, ?_, RustProgram.implements_ofTable hlists.names_nodup⟩
  exact RustProgram.read?_render hname fun e he => e.isIdentifier_constant (hlists.isWord e he).2

/-- Headers with a pair of spellings and the two keys that are exchanged. -/
def swapHeaders : SourceTexts where
  keysymdef :=
    "#define XK_Control_L 0xffe3\n#define XK_Meta_L 0xffe7\n" ++
      "#define XK_a 0x0061  /* U+0061 LATIN SMALL LETTER A */\n#define XK_A 0x0041\n"
  vendor := ""
  toolkit := "    Key_Control = 0x01000021,\n    Key_Meta = 0x01000022,\n    Key_A = 0x41,\n"

/-- The table of `swapHeaders`. -/
def swapTable : DecisionTable where
  textCases := .ofList [(0x61, ⟨0x61⟩)]
  entries := #[⟨"A", 0x41, .shift ⟨0x61⟩ ⟨0x41⟩⟩,
    ⟨"Control", 0x01000021, .swapped (.fixed ⟨0xffe3⟩) (.fixed ⟨0xffe7⟩) .macOS⟩,
    ⟨"Meta", 0x01000022, .swapped (.fixed ⟨0xffe7⟩) (.fixed ⟨0xffe3⟩) .macOS⟩]
  diagnostics := []

theorem buildTable_swapHeaders :
    (buildTable swapHeaders Overrides.builtin).outcome = .ok swapTable := by
  decide +kernel

/-- On macOS the rendered function answers the code of Control with the keysym of Meta. -/
theorem rustModule_implements_swapHeaders :
    (buildTable swapHeaders Overrides.builtin).outcome = .ok swapTable ∧
      Token.IsIdentifier "qt_key_to_keysym" ∧
      ∃ p, RustProgram.read? (RustModule.render ⟨"qt_key_to_keysym"⟩ swapTable) = some p ∧
        p.Implements "qt_key_to_keysym" swapTable ∧
        p.run 0x01000021 0 "" .macOS = some 0xffe7 := by
  have hname : Token.IsIdentifier "qt_key_to_keysym" := by decide
  obtain ⟨p, hread, himplements⟩ := rustModule_implements buildTable_swapHeaders hname
  refine ⟨buildTable_swapHeaders, hname, p, hread, himplements, ?_⟩
  rw [himplements.run_eq]
  decide

end KeyDispatch
