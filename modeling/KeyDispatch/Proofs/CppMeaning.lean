import KeyDispatch.Proofs.CppBranches
import KeyDispatch.Proofs.RustMeaning

/-!
# Meaning of the generated C++ header

On each platform the header that is rendered for a table reads back as the function of the table
(`CppFunction.read?_render`), unless the include guard, once it is a macro, disturbs the rest of the
header.
-/

namespace KeyDispatch

namespace CppFunction

open Token Preprocessor

/-! ## The tokens of the lines -/

/-- The directives of a header. -/
def directives : List (List Token) :=
  [.sign '#' :: conditionTokens .macOS, .sign '#' :: conditionTokens .other, lex "#else",
    lex "#endif"]

/-- The fixed tokens of a header's code. -/
def vocabulary : List Token :=
  ["inline", "int", "qtKey", "qtModifiers", "const", "QString", "text", "if", "size", "1", "switch",
    "unicode", "0", "case", "default", "break", "return", "else", "Qt", "ShiftModifier",
    "KeypadModifier"].map .word
    ++ ['(', ')', '[', ']', '\x7b', '\x7d', ',', '.', ':', ';', '&', '='].map .sign

section Tokens

variable {P : Token → Prop} (hfixed : ∀ tok ∈ vocabulary, P tok)
  (hnumber : ∀ (width : Nat) (n : UInt32), P (.word (Text.hexText width n.toNat)))

include hfixed

/-- What holds of the vocabulary holds of fixed code. -/
theorem forall_fixed {line : List Token} (h : ∀ tok ∈ line, tok ∈ vocabulary) :
    ∀ tok ∈ line, P tok :=
  fun tok htok => hfixed tok (h tok htok)

include hnumber

theorem forall_returnTokens (keysym : Keysym) : ∀ tok ∈ returnTokens keysym, P tok := by
  unfold returnTokens
  simp only [List.forall_mem_append, List.forall_mem_singleton]
  refine ⟨forall_fixed hfixed (by decide), hnumber 4 keysym.code,
    forall_fixed hfixed (by decide)⟩

theorem forall_choiceTokens (m : Modifier) (set unset : Keysym) :
    ∀ tok ∈ choiceTokens m set unset, P tok := by
  have hmodifier : .word (modifierName m) ∈ vocabulary := by
    cases m <;> decide
  unfold choiceTokens
  simp only [List.forall_mem_append, List.forall_mem_singleton]
  refine ⟨forall_fixed hfixed (by decide), hfixed _ hmodifier,
    forall_fixed hfixed (by decide), forall_returnTokens hfixed hnumber set,
    forall_fixed hfixed (by decide), forall_returnTokens hfixed hnumber unset,
    forall_fixed hfixed (by decide)⟩

/-- A line of a resolution's statement is a directive, or all its tokens are code. -/
theorem forall_statementLines (r : Resolution) :
    ∀ line ∈ statementLines r, line ∈ directives ∨ ∀ tok ∈ line, P tok := by
  induction r with
  | fixed keysym =>
    exact List.forall_mem_singleton.2 (.inr (forall_returnTokens hfixed hnumber keysym))
  | shift lower upper =>
    exact List.forall_mem_singleton.2 (.inr (forall_choiceTokens hfixed hnumber .shift upper lower))
  | keypad plain onKeypad =>
    exact List.forall_mem_singleton.2
      (.inr (forall_choiceTokens hfixed hnumber .keypad onKeypad plain))
  | swapped normal exchanged target ihn ihe =>
    have hblank : [] ∈ directives ∨ ∀ tok ∈ ([] : List Token), P tok := .inr (by simp)
    -- the directives of a block are fixed, its branches are statements again
    have hif : .sign '#' :: conditionTokens target ∈ directives := by
      cases target <;> decide
    unfold statementLines blockLines
    simp only [List.forall_mem_append, List.forall_mem_singleton]
    exact ⟨hblank, ⟨.inl hif, ihe, .inl (by decide), ihn, .inl (by decide)⟩, hblank⟩

theorem forall_functionLines {name : String} {t : DecisionTable}
    (hkeys : ∀ e ∈ t.entries.toList, P (.word e.constant)) (hname : P (.word name)) :
    ∀ line ∈ functionLines name t, line ∈ directives ∨ ∀ tok ∈ line, P tok := by
  have hlines : ∀ lines : List (List Token), (∀ line ∈ lines, ∀ tok ∈ line, tok ∈ vocabulary) →
      ∀ line ∈ lines, line ∈ directives ∨ ∀ tok ∈ line, P tok :=
    fun lines h line hline => .inr (forall_fixed hfixed (h line hline))
  have hhead : ∀ tok ∈ headTokens name, P tok := by
    unfold headTokens
    simp only [List.forall_mem_append, List.forall_mem_singleton]
    exact ⟨forall_fixed hfixed (by decide), hname, forall_fixed hfixed (by decide)⟩
  have htext : ∀ p, ∀ tok ∈ textCaseTokens p, P tok := by
    intro p
    unfold textCaseTokens
    simp only [List.forall_mem_append, List.forall_mem_singleton]
    exact ⟨forall_fixed hfixed (by decide), hnumber 4 p.1,
      forall_fixed hfixed (by decide), forall_returnTokens hfixed hnumber p.2⟩
  have hkey : ∀ e ∈ t.entries.toList, ∀ line ∈ keyCaseLines e,
      line ∈ directives ∨ ∀ tok ∈ line, P tok := by
    intro e he
    have hlabel : ∀ tok ∈ labelTokens e, P tok := by
      unfold labelTokens
      simp only [List.forall_mem_append, List.forall_mem_singleton]
      exact ⟨forall_fixed hfixed (by decide), hkeys e he,
        forall_fixed hfixed (by decide)⟩
    unfold keyCaseLines
    cases e.resolution with
    | fixed keysym =>
      exact List.forall_mem_singleton.2
        (.inr (List.forall_mem_append.2 ⟨hlabel, forall_returnTokens hfixed hnumber keysym⟩))
    | shift lower upper =>
      exact List.forall_mem_singleton.2 (.inr (List.forall_mem_append.2
        ⟨hlabel, forall_choiceTokens hfixed hnumber .shift upper lower⟩))
    | keypad plain onKeypad =>
      exact List.forall_mem_singleton.2 (.inr (List.forall_mem_append.2
        ⟨hlabel, forall_choiceTokens hfixed hnumber .keypad onKeypad plain⟩))
    | swapped normal exchanged target =>
      -- the block is a resolution's statement without the blank lines around it
      have hswapped := forall_statementLines hfixed hnumber (.swapped normal exchanged target)
      refine List.forall_mem_append.2 ⟨List.forall_mem_singleton.2 (.inr hlabel), ?_⟩
      intro line hl
      exact hswapped line (List.mem_append_right _ (List.mem_append_left _ hl))
  unfold functionLines
  simp only [List.forall_mem_append, List.forall_mem_singleton]
  refine ⟨.inr hhead, hlines _ (by decide), ?_, hlines _ (by decide), ?_,
    hlines _ (by decide)⟩
  · intro line hline
    obtain ⟨p, -, hp⟩ := List.mem_flatMap.1 hline
    rw [List.mem_singleton.1 hp]
    exact .inr (htext p)
  · intro line hline
    obtain ⟨e, he, hline⟩ := List.mem_flatMap.1 hline
    exact hkey e he line hline

end Tokens

/-! ## Reading a rendered header -/

/-- No line of a header holds a line end. -/
theorem lineEnd_not_mem_headerLines (h : CppHeader) (t : DecisionTable) :
    ∀ line ∈ headerLines h t, .lineEnd ∉ line := by
  have hdirectives : ∀ line ∈ directives, .lineEnd ∉ line := by decide
  have hfunction : ∀ line ∈ functionLines h.functionName t, .lineEnd ∉ line := by
    intro line hline
    rcases forall_functionLines (P := (· ≠ .lineEnd)) (by decide) (fun _ _ => nofun)
      (fun _ _ => nofun) nofun line hline with hdirective | hcode
    · exact hdirectives line hdirective
    · intro hmem
      exact hcode _ hmem rfl
  unfold headerLines includeLines
  simp only [List.forall_mem_append]
  refine ⟨by decide, ?_, hfunction, by decide⟩
  simp only [List.forall_mem_cons]
  exact ⟨by simp, by simp, by simp, by decide, by decide, by simp, by simp⟩

/-- A word that is neither fixed nor a number, nor the name of a key or of the function, is no word
of a header's code. -/
theorem word_not_mem_functionLines {m name : String} {t : DecisionTable}
    (hfixed : .word m ∉ vocabulary) (hnumeral : numeral? m = none)
    (hkeys : ∀ e ∈ t.entries.toList, e.constant ≠ m) (hname : name ≠ m) :
    Clear [m] (functionLines name t) := by
  intro line hline hcode m' hm
  obtain rfl := List.mem_singleton.1 hm
  have hdirectives : ∀ line ∈ directives, isDirective line = true := by decide
  rcases forall_functionLines (P := (· ≠ .word m')) (fun tok htok he => hfixed (he ▸ htok))
    (fun width n he => hexText_ne hnumeral width n (Token.word.inj he).symm)
    (fun e he h => hkeys e he (Token.word.inj h)) (fun he => hname (Token.word.inj he))
    line hline with hdirective | htokens
  · rw [hdirectives line hdirective] at hcode
    cases hcode
  · intro hmem
    exact htokens _ hmem rfl

/-- The constant of a key begins as all of them do. -/
theorem constant_ne {m : String} (h : m.toList.head? ≠ some 'K') (e : Entry) : e.constant ≠ m := by
  rintro rfl
  rw [e.toList_constant] at h
  exact h rfl

/-- The name of the platform's macro is no word of a header's code, unless the function bears it. -/
theorem clear_platformMacro {name : String} {t : DecisionTable} (hname : name ≠ "Q_OS_OSX") :
    Clear ["Q_OS_OSX"] (functionLines name t) :=
  word_not_mem_functionLines (by decide) (by decide) (fun e _ => constant_ne (by decide) e)
    hname

section Render

variable {h : CppHeader} {t : DecisionTable} (hname : IsIdentifier h.functionName)
  (hguard : IsIdentifier h.includeGuard)
  (hnames : ∀ e ∈ t.entries.toList, IsIdentifier e.constant)

include hname hguard hnames

/-- The lines of a rendered header are found again. -/
theorem splitLines_render : splitLines [] (lex (h.render t)) = headerLines h t := by
  rw [(lexes_render hname hguard hnames).lex_eq]
  exact splitLines_ofLines (lineEnd_not_mem_headerLines h t)

/-- A guard that is no word of the header's code is no word of the function's. -/
theorem clear_includeGuard (hcode : .word h.includeGuard ∉ codeTokens (h.render t)) :
    Clear [h.includeGuard] (functionLines h.functionName t) := by
  intro line hline hdirective m hm hmem
  obtain rfl := List.mem_singleton.1 hm
  unfold codeTokens at hcode
  rw [splitLines_render hname hguard hnames] at hcode
  refine hcode (List.mem_flatten.2 ⟨line, List.mem_filter.2 ⟨?_, ?_⟩, hmem⟩)
  · exact List.mem_append_right _ (List.mem_append_right _ (List.mem_append_left _ hline))
  · rw [hdirective]
    rfl

/-- The words of the header's code are those of its function. -/
theorem word_not_mem_codeTokens {m : String} (hm : Clear [m] (functionLines h.functionName t)) :
    .word m ∉ codeTokens (h.render t) := by
  intro hmem
  unfold codeTokens at hmem
  rw [splitLines_render hname hguard hnames] at hmem
  obtain ⟨line, hline, hword⟩ := List.mem_flatten.1 hmem
  obtain ⟨hline, hnot⟩ := List.mem_filter.1 hline
  have hcode : isDirective line = false := by simpa using hnot
  -- the lines before and after the function hold directives only
  have hincludes : ∀ line ∈ includeLines h.includeGuard, isDirective line = true ∨ line = [] := by
    unfold includeLines
    simp only [List.forall_mem_cons]
    exact ⟨.inl rfl, .inl rfl, .inr trivial, .inl rfl, .inl rfl, .inr trivial, nofun⟩
  have hblank : line ≠ [] := List.ne_nil_of_mem hword
  unfold headerLines at hline
  simp only [List.mem_append] at hline
  rcases hline with hfirst | hinclude | hfunction | hend
  · exact hblank (by simpa using hfirst)
  · rcases hincludes line hinclude with hdirective | hnil
    · rw [hdirective] at hcode
      cases hcode
    · exact hblank hnil
  · exact hm line hfunction hcode m List.mem_cons_self hword
  · rw [List.mem_singleton.1 hend] at hcode
    cases hcode

/-- A rendered header reads back as the function of its table, on the platform that the macros tell
once the guard is one of them. -/
theorem read?_render {platform : Platform} (hnew : h.includeGuard ∉ platformMacros platform)
    (hdefined : h.includeGuard ≠ "defined")
    (hclear : Clear (h.includeGuard :: platformMacros platform) (functionLines h.functionName t)) :
    read? platform (h.render t) = some (ofTable h.functionName
      (seenPlatform (h.includeGuard :: platformMacros platform)) t) := by
  have hpreprocess : preprocess (platformMacros platform) (h.render t) = some (functionTokens
      h.functionName (seenPlatform (h.includeGuard :: platformMacros platform)) t) := by
    rw [preprocess, splitLines_render hname hguard hnames, run_headerLines hnew hdefined hclear]
  rw [read?, hpreprocess, Option.bind_some]
  exact (reads_function hname hnames _).readAll?_eq

end Render

/-- The function is what the function of a table has to be on a platform: the cases in the order of
the table, and the table's answer to every key event, a single character of two units being no text
to it. -/
structure Implements (f : CppFunction) (toolkit : ToolkitTable) (functionName : String)
    (platform : Platform) (t : DecisionTable) : Prop where
  functionName_eq : f.functionName = functionName
  textCases_eq : f.textCases =
    (t.textCases.toList.filter fun c => c.1 ≤ 0xFFFF).map fun c => (c.1, c.2.code)
  keyCases_eq : f.keyCases.map (·.1) = t.entries.toList.map fun e => "Key_" ++ e.name
  run_eq : ∀ key bits text, f.run (enumeratorValue? toolkit) key bits (utf16 text) =
    some ((t.dispatch key bits (withoutAstral text) platform).getD Keysym.none).code

theorem implements_ofTable {toolkit : ToolkitTable} {t : DecisionTable} (hlists : t.Lists toolkit)
    (hcodes : (t.entries.toList.map (·.toolkitCode)).Nodup) (name : String)
    (platform : Platform) : (ofTable name platform t).Implements toolkit name platform t where
  functionName_eq := rfl
  textCases_eq := rfl
  keyCases_eq := List.map_map ..
  run_eq := run_ofTable hlists hcodes name platform

end CppFunction

/-- The names of a header do not disturb its preprocessing: neither is the platform's macro, and the
guard is no word of the code and can be defined. -/
structure CppHeader.Undisturbed (h : CppHeader) (t : DecisionTable) : Prop where
  functionName_ne : h.functionName ≠ "Q_OS_OSX"
  includeGuard_ne : h.includeGuard ≠ "Q_OS_OSX"
  includeGuard_ne_defined : h.includeGuard ≠ "defined"
  includeGuard_not_mem : .word h.includeGuard ∉ Preprocessor.codeTokens (h.render t)

open CppFunction in
/-- An undisturbed header reads back on each platform as the function of its table there. -/
theorem CppHeader.Undisturbed.read?_render {h : CppHeader} {t : DecisionTable}
    (hh : h.Undisturbed t) (hname : Token.IsIdentifier h.functionName)
    (hguard : Token.IsIdentifier h.includeGuard)
    (hnames : ∀ e ∈ t.entries.toList, Token.IsIdentifier e.constant) (platform : Platform) :
    read? platform (h.render t) = some (ofTable h.functionName platform t) := by
  have hclear := clear_includeGuard hname hguard hnames hh.includeGuard_not_mem
  have hmacro := clear_platformMacro (t := t) hh.functionName_ne
  -- neither the guard nor the macro of the platform is a word of the code
  have hall : Clear (h.includeGuard :: platformMacros platform)
      (functionLines h.functionName t) := by
    intro line hline hcode m hm
    rcases List.mem_cons.1 hm with rfl | hm
    · exact hclear line hline hcode _ (List.mem_singleton_self _)
    · cases platform with
      | macOS => exact hmacro line hline hcode m hm
      | other => cases hm
  -- the guard is not the macro that tells the platform
  have hseen : seenPlatform (h.includeGuard :: platformMacros platform) = platform := by
    cases platform <;> simp [seenPlatform, platformMacros, hh.includeGuard_ne.symm]
  have hnew : h.includeGuard ∉ platformMacros platform := by
    cases platform <;> simp [platformMacros, hh.includeGuard_ne]
  rw [CppFunction.read?_render hname hguard hnames hnew hh.includeGuard_ne_defined hall, hseen]

/-- The standard names disturb no header. -/
theorem CppHeader.undisturbed_standard {t : DecisionTable}
    (hnames : ∀ e ∈ t.entries.toList, Token.IsIdentifier e.constant) :
    CppHeader.standard.Undisturbed t where
  functionName_ne := by decide
  includeGuard_ne := by decide
  includeGuard_ne_defined := by decide
  includeGuard_not_mem := by
    apply CppFunction.word_not_mem_codeTokens (by decide) (by decide) hnames
    exact CppFunction.word_not_mem_functionLines (by decide) (by decide)
      (fun e _ => CppFunction.constant_ne (by decide) e) (by decide)

/-- A header for the table of any headers in which no two keys have one code reads back on each
platform as a function that implements the table there, under any function name and include guard
that leave it undisturbed. So it agrees with the Rust module on every event whose text is not a
single character beyond U+FFFF. -/
theorem cppHeader_implements {sources : SourceTexts} {overrides : Overrides}
    {table : DecisionTable} (h : (buildTable sources overrides).outcome = .ok table)
    (hcodes : (table.entries.toList.map (·.toolkitCode)).Nodup) {header : CppHeader}
    (hname : Token.IsIdentifier header.functionName)
    (hguard : Token.IsIdentifier header.includeGuard) (hheader : header.Undisturbed table) :
    ∃ toolkit, (ToolkitTable.ofText sources.toolkit).outcome = .ok toolkit ∧
      ∀ platform, ∃ f, CppFunction.read? platform (header.render table) = some f ∧
        f.Implements toolkit header.functionName platform table ∧
        ∀ rustName, Token.IsIdentifier rustName → ∃ p,
          RustProgram.read? (RustModule.render ⟨rustName⟩ table) = some p ∧
          ∀ key bits text, (∀ c, text.toList = [c] → c.val ≤ 0xFFFF) →
            f.run (enumeratorValue? toolkit) key bits (utf16 text)
              = p.run key bits text platform := by
  obtain ⟨toolkit, htoolkit, hlists⟩ := exists_lists_of_buildTable h
  have hnames : ∀ e ∈ table.entries.toList, Token.IsIdentifier e.constant :=
    fun e he => e.isIdentifier_constant (hlists.isWord e he).2
  refine ⟨toolkit, htoolkit, ?_⟩
  intro platform
  refine ⟨_, hheader.read?_render hname hguard hnames platform,
    CppFunction.implements_ofTable hlists hcodes _ platform, ?_⟩
  intro rustName hrust
  refine ⟨_, RustProgram.read?_render (m := ⟨rustName⟩) hrust hnames, ?_⟩
  intro key bits text htext
  -- both artifacts give the table's answer, to the same text
  rw [CppFunction.run_ofTable hlists hcodes, RustProgram.run_ofTable hlists.names_nodup,
    withoutAstral_eq htext]

theorem nodup_swapTable_codes : (swapTable.entries.toList.map (·.toolkitCode)).Nodup := by
  decide

/-- The standard header of `swapTable` answers Control with the keysym of Meta on macOS. -/
theorem cppHeader_implements_swapHeaders :
    (buildTable swapHeaders Overrides.builtin).outcome = .ok swapTable ∧
      (swapTable.entries.toList.map (·.toolkitCode)).Nodup ∧
      Token.IsIdentifier CppHeader.standard.functionName ∧
      Token.IsIdentifier CppHeader.standard.includeGuard ∧
      CppHeader.standard.Undisturbed swapTable ∧
      ∃ toolkit, (ToolkitTable.ofText swapHeaders.toolkit).outcome = .ok toolkit ∧
        ∃ f, CppFunction.read? .macOS (CppHeader.standard.render swapTable) = some f ∧
          f.run (enumeratorValue? toolkit) 0x01000021 0 (utf16 "") = some 0xffe7 := by
  have hname : Token.IsIdentifier CppHeader.standard.functionName := by decide
  have hguard : Token.IsIdentifier CppHeader.standard.includeGuard := by decide
  have hnames : ∀ e ∈ swapTable.entries.toList, Token.IsIdentifier e.constant := by decide
  have hheader := CppHeader.undisturbed_standard hnames
  obtain ⟨toolkit, htoolkit, hread⟩ :=
    cppHeader_implements buildTable_swapHeaders nodup_swapTable_codes hname hguard hheader
  obtain ⟨f, hf, himplements, -⟩ := hread .macOS
  refine ⟨buildTable_swapHeaders, nodup_swapTable_codes, hname, hguard, hheader, toolkit, htoolkit,
    f, hf, ?_⟩
  rw [himplements.run_eq]
  decide

/-- With the platform's macro as its include guard, the header of `swapTable` exchanges Control and
Meta elsewhere too: the guard defines the macro that the exchange asks for. -/
theorem cppHeader_platformGuard :
    (buildTable swapHeaders Overrides.builtin).outcome = .ok swapTable ∧
      (swapTable.entries.toList.map (·.toolkitCode)).Nodup ∧
      Token.IsIdentifier "orv_qt_key_to_keysym" ∧ Token.IsIdentifier "Q_OS_OSX" ∧
      ∃ toolkit, (ToolkitTable.ofText swapHeaders.toolkit).outcome = .ok toolkit ∧
        ∃ f, CppFunction.read? .other
            (CppHeader.render ⟨"orv_qt_key_to_keysym", "Q_OS_OSX"⟩ swapTable) = some f ∧
          f.run (enumeratorValue? toolkit) 0x01000021 0 (utf16 "") = some 0xffe7 ∧
          swapTable.dispatch 0x01000021 0 (withoutAstral "") .other = some ⟨0xffe3⟩ := by
  have hname : Token.IsIdentifier "orv_qt_key_to_keysym" := by decide
  have hguard : Token.IsIdentifier "Q_OS_OSX" := by decide
  have hnames : ∀ e ∈ swapTable.entries.toList, Token.IsIdentifier e.constant := by decide
  obtain ⟨toolkit, htoolkit, hlists⟩ := exists_lists_of_buildTable buildTable_swapHeaders
  have hread : CppFunction.read? .other
      (CppHeader.render ⟨"orv_qt_key_to_keysym", "Q_OS_OSX"⟩ swapTable) = some _ :=
    CppFunction.read?_render hname hguard hnames (by decide) (by decide)
      (CppFunction.clear_platformMacro (by decide))
  refine ⟨buildTable_swapHeaders, nodup_swapTable_codes, hname, hguard, toolkit, htoolkit,
    _, hread, ?_, by decide⟩
  rw [CppFunction.run_ofTable hlists nodup_swapTable_codes]
  decide

end KeyDispatch
