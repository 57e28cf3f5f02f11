import KeyDispatch.Proofs.CppMeaning

/-!
# Labels of the generated C++ header

A switch must not have two labels of one value. The labels of the text switch are the positions of
the table, which are different (`CppHeader.textLabels_render`). The labels of the key switch are the
names of the entries, which are different as well, but two names may stand for one code of the
toolkit: the labels have different values exactly if no two entries have one code
(`cppHeader_labels_nodup_iff`).
-/

namespace KeyDispatch

namespace CppHeader

open Token Preprocessor CppFunction

/-! ## Reading labels -/

/-- The enumerator of a line that opens the case of a key. -/
def keyLabel? : List Token → Option String
  | .word "case" :: .word "Qt" :: .sign ':' :: .sign ':' :: .word name :: _ => some name
  | _ => none

/-- The number of a line that opens the case of a character. -/
def textLabel? : List Token → Option UInt32
  | .word "case" :: .word text :: .sign ':' :: _ => numeral? text
  | _ => none

/-- The enumerators that the key switch of a header has for labels. -/
def keyLabels (text : String) : List String := (splitLines [] (lex text)).filterMap keyLabel?

/-- The numbers that the text switch of a header has for labels. -/
def textLabels (text : String) : List UInt32 := (splitLines [] (lex text)).filterMap textLabel?

/-! ## Lines that open no case -/

/-- The line opens no case. -/
def OpensNone (line : List Token) : Prop := line.head? ≠ some (.word "case")

instance (line : List Token) : Decidable (OpensNone line) :=
  inferInstanceAs (Decidable (_ ≠ _))

theorem OpensNone.keyLabel? {line : List Token} (h : OpensNone line) : keyLabel? line = none := by
  unfold CppHeader.keyLabel?
  split
  · exact absurd rfl h
  · rfl

theorem OpensNone.textLabel? {line : List Token} (h : OpensNone line) :
    textLabel? line = none := by
  unfold CppHeader.textLabel?
  split
  · exact absurd rfl h
  · rfl

theorem opensNone_conditionTokens (target : Platform) :
    OpensNone (.sign '#' :: conditionTokens target) := by
  simp [OpensNone]

theorem opensNone_returnTokens (keysym : Keysym) : OpensNone (returnTokens keysym) := by
  have hlex : lex "return" = [.word "return"] := by decide
  simp [OpensNone, returnTokens, hlex]

theorem opensNone_choiceTokens (m : Modifier) (set unset : Keysym) :
    OpensNone (choiceTokens m set unset) := by
  have hhead : (lex "if (qtModifiers & Qt::").head? = some (.word "if") := by decide
  unfold OpensNone choiceTokens
  rw [List.head?_append, hhead]
  simp

/-- The lines of a statement open no case, by induction on the resolution. -/
theorem opensNone_statementLines (r : Resolution) : ∀ line ∈ statementLines r, OpensNone line := by
  induction r with
  | fixed keysym => exact List.forall_mem_singleton.2 (opensNone_returnTokens keysym)
  | shift lower upper => exact List.forall_mem_singleton.2 (opensNone_choiceTokens _ _ _)
  | keypad plain onKeypad => exact List.forall_mem_singleton.2 (opensNone_choiceTokens _ _ _)
  | swapped normal exchanged target ihn ihe =>
    unfold statementLines blockLines
    simp only [List.forall_mem_append, List.forall_mem_singleton]
    exact ⟨by decide, ⟨opensNone_conditionTokens target, ihe, by decide, ihn, by decide⟩,
      by decide⟩

/-- Lines that open no case have no labels. -/
theorem filterMap_label_eq_nil {lines : List (List Token)} (h : ∀ line ∈ lines, OpensNone line) :
    lines.filterMap keyLabel? = [] ∧ lines.filterMap textLabel? = [] := by
  rw [List.filterMap_eq_nil_iff, List.filterMap_eq_nil_iff]
  exact ⟨fun line hline => (h line hline).keyLabel?, fun line hline => (h line hline).textLabel?⟩

/-! ## The labels of a rendered header -/

/-- The first line of an entry's case opens it, and the others open none. -/
theorem exists_keyCaseLines_eq (e : Entry) : ∃ code rest,
    keyCaseLines e = (labelTokens e ++ code) :: rest ∧ ∀ line ∈ rest, OpensNone line := by
  unfold keyCaseLines
  cases e.resolution with
  | fixed keysym => exact ⟨returnTokens keysym, [], rfl, nofun⟩
  | shift lower upper => exact ⟨choiceTokens .shift upper lower, [], rfl, nofun⟩
  | keypad plain onKeypad => exact ⟨choiceTokens .keypad onKeypad plain, [], rfl, nofun⟩
  | swapped normal exchanged target =>
    refine ⟨[], blockLines target (statementLines exchanged) (statementLines normal), ?_, ?_⟩
    · rw [List.append_nil]
      rfl
    · unfold blockLines
      simp only [List.forall_mem_append, List.forall_mem_singleton]
      exact ⟨opensNone_conditionTokens target, opensNone_statementLines exchanged, by decide,
        opensNone_statementLines normal, by decide⟩

theorem labels_keyCaseLines (e : Entry) :
    (keyCaseLines e).filterMap keyLabel? = [e.constant] ∧
      (keyCaseLines e).filterMap textLabel? = [] := by
  obtain ⟨code, rest, hlines, hrest⟩ := exists_keyCaseLines_eq e
  obtain ⟨hkey, htext⟩ := filterMap_label_eq_nil hrest
  have hlex : lex "case Qt::" = [.word "case", .word "Qt", .sign ':', .sign ':'] := by decide
  have hlabel : keyLabel? (labelTokens e ++ code) = some e.constant := by
    rw [labelTokens, hlex]
    rfl
  have hnumber : textLabel? (labelTokens e ++ code) = none := by
    rw [labelTokens, hlex]
    rfl
  rw [hlines, List.filterMap_cons_some hlabel, List.filterMap_cons_none hnumber, hkey, htext]
  exact ⟨rfl, rfl⟩

theorem labels_textCaseTokens (p : UInt32 × Keysym) :
    keyLabel? (textCaseTokens p) = none ∧ textLabel? (textCaseTokens p) = some p.1 := by
  have hcase : lex "case" = [.word "case"] := by decide
  have hcolon : lex ":" = [.sign ':'] := by decide
  have hreturn : lex "return" = [.word "return"] := by decide
  unfold textCaseTokens returnTokens
  rw [hcase, hcolon, hreturn]
  constructor
  · -- behind the number stands one colon only
    show keyLabel? (.word "case" :: .word _ :: .sign ':' :: .word "return" :: _) = none
    unfold keyLabel?
    split
    · rename_i h
      simp at h
    · rfl
  · exact numeral?_hexText 4 p.1

/-- Cases of characters have their positions for labels. -/
theorem labels_textCases (cases : List (UInt32 × Keysym)) :
    (cases.flatMap fun p => [textCaseTokens p]).filterMap keyLabel? = [] ∧
      (cases.flatMap fun p => [textCaseTokens p]).filterMap textLabel? = cases.map (·.1) := by
  rw [List.filterMap_flatMap, List.filterMap_flatMap]
  constructor
  · simp [labels_textCaseTokens]
  · simp [labels_textCaseTokens, List.map_eq_flatMap]

/-- Cases of keys have the entries' names for labels. -/
theorem labels_keyCases (entries : List Entry) :
    (entries.flatMap keyCaseLines).filterMap keyLabel? = entries.map Entry.constant ∧
      (entries.flatMap keyCaseLines).filterMap textLabel? = [] := by
  rw [List.filterMap_flatMap, List.filterMap_flatMap]
  constructor
  · simp [labels_keyCaseLines, List.map_eq_flatMap]
  · simp [labels_keyCaseLines]

/-- Around the cases of a header stand lines that open none. -/
theorem exists_headerLines_eq (h : CppHeader) (t : DecisionTable) : ∃ opening between closing,
    headerLines h t = opening
      ++ (((t.textCases.toList.filter fun p => isUnit p.1).flatMap fun p => [textCaseTokens p])
      ++ (between ++ (t.entries.toList.flatMap keyCaseLines ++ closing))) ∧
    ∀ line ∈ opening ++ between ++ closing, OpensNone line := by
  have hhead : OpensNone (headTokens h.functionName) := by
    have hinline : (lex "inline int").head? = some (.word "inline") := by decide
    unfold OpensNone headTokens
    rw [List.head?_append, hinline]
    simp
  have hincludes : ∀ line ∈ includeLines h.includeGuard, OpensNone line := by
    unfold includeLines
    simp only [List.forall_mem_cons]
    exact ⟨by simp [OpensNone], by simp [OpensNone], by decide, by decide, by decide, by decide,
      nofun⟩
  refine ⟨[[], []] ++ (includeLines h.includeGuard ++ ([headTokens h.functionName] ++
      [lex "\x7b", lex "if (text.size() == 1) \x7b",
        lex "switch (text.unicode()[0].unicode()) \x7b"])),
    [lex "default: break;", lex "\x7d", lex "\x7d", lex "switch (qtKey) \x7b"],
    [lex "default: return 0;", lex "\x7d", lex "\x7d"] ++ [lex "#endif"], ?_, ?_⟩
  · simp only [headerLines, functionLines, List.append_assoc]
  · simp only [List.forall_mem_append, List.forall_mem_singleton]
    exact ⟨⟨⟨by decide, hincludes, hhead, by decide⟩, by decide⟩, by decide, by decide⟩

/-- The lines of a header have the names of the entries for labels of keys, and the positions of one
unit for labels of characters. -/
theorem labels_headerLines (h : CppHeader) (t : DecisionTable) :
    (headerLines h t).filterMap keyLabel? = t.entries.toList.map Entry.constant ∧
      (headerLines h t).filterMap textLabel? =
        (t.textCases.toList.filter fun p => isUnit p.1).map (·.1) := by
  obtain ⟨opening, between, closing, hlines, hnone⟩ := exists_headerLines_eq h t
  simp only [List.forall_mem_append] at hnone
  obtain ⟨hopening, hopeningText⟩ := filterMap_label_eq_nil hnone.1.1
  obtain ⟨hbetween, hbetweenText⟩ := filterMap_label_eq_nil hnone.1.2
  obtain ⟨hclosing, hclosingText⟩ := filterMap_label_eq_nil hnone.2
  obtain ⟨htext, htextText⟩ := labels_textCases (t.textCases.toList.filter fun p => isUnit p.1)
  obtain ⟨hkey, hkeyText⟩ := labels_keyCases t.entries.toList
  rw [hlines]
  simp only [List.filterMap_append, hopening, htext, hbetween, hkey, hclosing, hopeningText,
    htextText, hbetweenText, hkeyText, hclosingText, List.nil_append, List.append_nil, and_self]

section Render

variable {h : CppHeader} {t : DecisionTable} (hname : IsIdentifier h.functionName)
  (hguard : IsIdentifier h.includeGuard)
  (hnames : ∀ e ∈ t.entries.toList, IsIdentifier e.constant)

include hname hguard hnames

theorem keyLabels_render : keyLabels (h.render t) = t.entries.toList.map Entry.constant := by
  rw [keyLabels, splitLines_render hname hguard hnames, (labels_headerLines h t).1]

theorem textLabels_render : textLabels (h.render t) =
    (t.textCases.toList.filter fun p => isUnit p.1).map (·.1) := by
  rw [textLabels, splitLines_render hname hguard hnames, (labels_headerLines h t).2]

end Render

/-- The labels of a table's entries have the entries' codes for values. -/
theorem labelValues_constants {t : DecisionTable} {toolkit : ToolkitTable}
    (hlists : t.Lists toolkit) :
    (t.entries.toList.map Entry.constant).mapM (enumeratorValue? toolkit) =
      some (t.entries.toList.map (·.toolkitCode)) := by
  have hvalue : ∀ e ∈ t.entries.toList,
      enumeratorValue? toolkit e.constant = some e.toolkitCode := by
    intro e he
    rw [enumeratorValue?_constant, hlists.code?_name he]
  generalize t.entries.toList = entries at hvalue
  induction entries with
  | nil => rfl
  | cons e entries ih =>
    have hrest := ih fun e' he' => hvalue e' (List.mem_cons_of_mem e he')
    rw [List.map_cons, List.mapM_cons, hrest, hvalue e List.mem_cons_self]
    rfl

end CppHeader

/-- No two labels of the key switch of a header have one value exactly if no two entries of its
table have one code, and no two labels of its text switch are equal. -/
theorem cppHeader_labels_nodup_iff {sources : SourceTexts} {overrides : Overrides}
    {table : DecisionTable} (h : (buildTable sources overrides).outcome = .ok table)
    {header : CppHeader} (hname : Token.IsIdentifier header.functionName)
    (hguard : Token.IsIdentifier header.includeGuard) :
    ∃ toolkit, (ToolkitTable.ofText sources.toolkit).outcome = .ok toolkit ∧
      ∃ values, (CppHeader.keyLabels (header.render table)).mapM (enumeratorValue? toolkit) =
          some values ∧
        (values.Nodup ↔ ∀ a ∈ table.entries.toList, ∀ b ∈ table.entries.toList,
          a.toolkitCode = b.toolkitCode → a.name = b.name) ∧
        (CppHeader.textLabels (header.render table)).Nodup := by
  obtain ⟨toolkit, htoolkit, hlists⟩ := exists_lists_of_buildTable h
  have hnames : ∀ e ∈ table.entries.toList, Token.IsIdentifier e.constant :=
    fun e he => e.isIdentifier_constant (hlists.isWord e he).2
  refine ⟨toolkit, htoolkit, table.entries.toList.map (·.toolkitCode), ?_, ?_, ?_⟩
  · rw [CppHeader.keyLabels_render hname hguard hnames]
    exact CppHeader.labelValues_constants hlists
  · have hinj := List.inj_on_of_nodup_map hlists.names_nodup
    rw [List.nodup_map_iff_inj_on (List.Nodup.of_map _ hlists.names_nodup)]
    constructor
    · intro hcodes a ha b hb hcode
      rw [hcodes a ha b hb hcode]
    · intro hnames a ha b hb hcode
      exact hinj ha hb (hnames a ha b hb hcode)
  · rw [CppHeader.textLabels_render hname hguard hnames, List.Nodup, List.pairwise_map]
    exact table.textCases.keys_ne.filter _

/-- Headers in which two keys have one code. -/
def sharedCodeHeaders : SourceTexts where
  keysymdef := "#define XK_a 0x61\n#define XK_b 0x62\n"
  vendor := ""
  toolkit := "    Key_A = 0x41,\n    Key_B = 0x41,\n"

/-- The table of `sharedCodeHeaders`. -/
def sharedCodeTable : DecisionTable where
  textCases := .empty
  entries := #[⟨"A", 0x41, .fixed ⟨0x61⟩⟩, ⟨"B", 0x41, .fixed ⟨0x62⟩⟩]
  diagnostics := []

theorem buildTable_sharedCodeHeaders :
    (buildTable sharedCodeHeaders Overrides.builtin).outcome = .ok sharedCodeTable := by
  decide +kernel

/-- The standard header of `swapTable` has three labels of different values. -/
theorem cppHeader_labels_nodup_swapHeaders :
    (buildTable swapHeaders Overrides.builtin).outcome = .ok swapTable ∧
      Token.IsIdentifier CppHeader.standard.functionName ∧
      Token.IsIdentifier CppHeader.standard.includeGuard ∧
      ∃ toolkit, (ToolkitTable.ofText swapHeaders.toolkit).outcome = .ok toolkit ∧
        ∃ values, (CppHeader.keyLabels (CppHeader.standard.render swapTable)).mapM
            (enumeratorValue? toolkit) = some values ∧ values.Nodup := by
  have hname : Token.IsIdentifier CppHeader.standard.functionName := by decide
  have hguard : Token.IsIdentifier CppHeader.standard.includeGuard := by decide
  obtain ⟨toolkit, htoolkit, values, hvalues, hiff, -⟩ :=
    cppHeader_labels_nodup_iff buildTable_swapHeaders hname hguard
  exact ⟨buildTable_swapHeaders, hname, hguard, toolkit, htoolkit, values, hvalues,
    hiff.2 (by decide)⟩

/-- Two labels of the key switch have one value, where the table answers with the first of the two
keys: the header is no function at all, whatever the key event. -/
theorem cppHeader_sharedCode :
    (buildTable sharedCodeHeaders Overrides.builtin).outcome = .ok sharedCodeTable ∧
      sharedCodeTable.dispatch 0x41 0 "" .other = some ⟨0x61⟩ ∧
      ∃ toolkit, (ToolkitTable.ofText sharedCodeHeaders.toolkit).outcome = .ok toolkit ∧
        (CppHeader.keyLabels (CppHeader.standard.render sharedCodeTable)).mapM
          (enumeratorValue? toolkit) = some [0x41, 0x41] ∧
        ∃ f, CppFunction.read? .other (CppHeader.standard.render sharedCodeTable) = some f ∧
          ∀ key bits units, f.run (enumeratorValue? toolkit) key bits units = none := by
  have hname : Token.IsIdentifier CppHeader.standard.functionName := by decide
  have hguard : Token.IsIdentifier CppHeader.standard.includeGuard := by decide
  have hnames : ∀ e ∈ sharedCodeTable.entries.toList, Token.IsIdentifier e.constant := by decide
  obtain ⟨toolkit, htoolkit, hlists⟩ := exists_lists_of_buildTable buildTable_sharedCodeHeaders
  refine ⟨buildTable_sharedCodeHeaders, by decide, toolkit, htoolkit, ?_, _,
    (CppHeader.undisturbed_standard hnames).read?_render hname hguard hnames .other, ?_⟩
  · rw [CppHeader.keyLabels_render hname hguard hnames]
    exact CppHeader.labelValues_constants hlists
  · intro key bits units
    rw [CppFunction.run, CppFunction.keyLabels?_ofTable hlists]
    exact if_neg (by decide)

end KeyDispatch
