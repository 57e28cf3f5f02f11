import KeyDispatch.Proofs.KeysymSources
import KeyDispatch.Proofs.RustMeaning

/-!
# The answer that there is no keysym

A generated function answers with one code, zero, that it knows no keysym, and a header may define
a symbol with this code. So the answer is ambiguous where the table has the code for some key event
(`DecisionTable.exists_dispatch_eq_some_iff`), which an accepted symbol with the code must have
brought there: without such a symbol the answer tells exactly that the table has none
(`rustModule_tellsNone`). The headers `zeroHeaders` have one, and their table knows a key and a
character for which the function answers that there is no keysym
(`rustModule_ambiguous_zeroHeaders`).
-/

namespace KeyDispatch

/-! ## The codes that a table answers with -/

namespace Modifier

theorem isSet_zero (m : Modifier) : m.isSet 0 = false := by
  cases m <;> decide

theorem isSet_mask (m : Modifier) : m.isSet m.mask = true := by
  cases m <;> decide

end Modifier

/-- There is another platform than a given one. -/
theorem Platform.exists_ne (platform : Platform) :
    ∃ elsewhere : Platform, elsewhere ≠ platform := by
  cases platform with
  | macOS => exact ⟨.other, by decide⟩
  | other => exact ⟨.macOS, by decide⟩

namespace Resolver

variable {r : Resolver} {key : String}

/-- Each keysym of a resolution with a source is produced on any platform while some modifiers are
held. -/
theorem Sourced.exists_evaluate {resolution : Resolution} (h : r.Sourced key resolution)
    (platform : Platform) {k : Keysym} (hk : k ∈ resolution.keysyms) :
    ∃ bits, resolution.evaluate bits platform = k := by
  cases h with
  | fixed h =>
    obtain rfl := List.mem_singleton.1 hk
    exact ⟨0, rfl⟩
  | shift hlower hupper _ _ _ =>
    rcases List.mem_pair.1 hk with rfl | rfl
    · exact ⟨0, by simp [Resolution.evaluate, Modifier.isSet_zero]⟩
    · exact ⟨Modifier.shift.mask, by simp [Resolution.evaluate, Modifier.isSet_mask]⟩
  | keypad hplain hsymbol _ =>
    rcases List.mem_pair.1 hk with rfl | rfl
    · exact ⟨0, by simp [Resolution.evaluate, Modifier.isSet_zero]⟩
    · exact ⟨Modifier.keypad.mask, by simp [Resolution.evaluate, Modifier.isSet_mask]⟩

/-- Each keysym of an entry is produced on some platform. -/
theorem SourcesEntry.exists_evaluate {e : Entry} (h : r.SourcesEntry e) {k : Keysym}
    (hk : k ∈ e.resolution.keysyms) :
    ∃ bits platform, e.resolution.evaluate bits platform = k := by
  cases h with
  | own h =>
    obtain ⟨bits, hbits⟩ := h.exists_evaluate .other hk
    exact ⟨bits, .other, hbits⟩
  | exchanged _ h hnormal hother =>
    rw [h] at hk ⊢
    rcases List.mem_append.1 hk with hk | hk
    -- the normal side elsewhere, and the other one there
    · obtain ⟨elsewhere, helsewhere⟩ := Platform.exists_ne r.overrides.swap.platform
      obtain ⟨bits, hbits⟩ := hnormal.exists_evaluate elsewhere hk
      exact ⟨bits, elsewhere, (if_neg helsewhere).trans hbits⟩
    · obtain ⟨bits, hbits⟩ := hother.exists_evaluate r.overrides.swap.platform hk
      exact ⟨bits, _, (if_pos rfl).trans hbits⟩

end Resolver

/-- A code that a table has where a key event reaches it is an answer, if every keysym of an entry
is produced. -/
theorem DecisionTable.exists_dispatch_eq_some_iff {t : DecisionTable}
    (hproduced : ∀ e ∈ t.entries.toList, ∀ k ∈ e.resolution.keysyms,
      ∃ bits platform, e.resolution.evaluate bits platform = k) {code : Keysym} :
    (∃ key bits text platform, t.dispatch key bits text platform = some code) ↔ t.Answers code := by
  constructor
  · rintro ⟨key, bits, text, platform, h⟩
    exact answers_of_dispatch_eq_some h
  · intro h
    cases h with
    | @text c h =>
      have htext : t.dispatchText? (String.singleton c) = some code := by
        rw [dispatchText?, String.toList_singleton]
        exact h
      refine ⟨0, 0, String.singleton c, .other, ?_⟩
      rw [dispatch_eq_or, htext]
      rfl
    | @key e h hcode =>
      obtain ⟨bits, platform, rfl⟩ := hproduced e (List.mem_of_find?_eq_some h) code hcode
      refine ⟨e.toolkitCode, bits, "", platform, ?_⟩
      rw [dispatch_eq_or, dispatchKey, h]
      rfl

/-! ## The answer of a program -/

/-- The code for no keysym stands for an answer that is missing, or is one. -/
theorem Keysym.code_getD_none_iff {answer : Option Keysym} :
    (answer.getD Keysym.none).code = Keysym.none.code ↔
      answer = Option.none ∨ answer = some Keysym.none := by
  cases answer with
  | none => simp
  | some keysym =>
    rw [Option.getD_some, Option.some.injEq, ← Keysym.mk.injEq]
    exact (or_iff_right (Option.some_ne_none keysym)).symm

/-- What it means that a program of a table answers with the code for no keysym, where `accepted`
are the accepted symbols. -/
structure RustProgram.TellsNone (p : RustProgram) (t : DecisionTable)
    (accepted : List PrimarySymbol) : Prop where
  run_eq_none_iff : ∀ key bits text platform,
    p.run key bits text platform = some Keysym.none.code ↔
      t.dispatch key bits text platform = none ∨ t.dispatch key bits text platform = some .none
  /-- The answer is ambiguous for some key event exactly if a character or the first entry with its
  toolkit code has the code. -/
  ambiguous_iff : (∃ key bits text platform,
    p.run key bits text platform = some Keysym.none.code ∧
      t.dispatch key bits text platform ≠ none) ↔ t.Answers .none
  textCase_accepted : ∀ position, (position, Keysym.none) ∈ t.textCases.toList →
    ∃ s ∈ accepted, s.declares position ∧ s.code = .none
  entry_accepted : ∀ e ∈ t.entries.toList, Keysym.none ∈ e.resolution.keysyms →
    ∃ s ∈ accepted, s.code = .none
  unambiguous : (∀ s ∈ accepted, s.code ≠ .none) → ∀ key bits text platform,
    p.run key bits text platform = some Keysym.none.code ↔ t.dispatch key bits text platform = none

/-- A program that gives the table's answers tells as much as its table has sources for. -/
theorem RustProgram.tellsNone_of_run {p : RustProgram} {t : DecisionTable} {r : Resolver}
    (hrun : ∀ key bits text platform, p.run key bits text platform =
      some ((t.dispatch key bits text platform).getD Keysym.none).code)
    (hentry : ∀ e ∈ t.entries.toList, r.SourcesEntry e)
    (htext : ∀ q ∈ t.textCases.toList, ∃ s ∈ r.primary.symbols, s.declares q.1 ∧ s.code = q.2)
    {source : String} (hvendor : (VendorTable.ofText source).outcome = .ok r.vendor) :
    p.TellsNone t r.primary.symbols := by
  have hiff : ∀ key bits text platform,
      p.run key bits text platform = some Keysym.none.code ↔
        t.dispatch key bits text platform = none ∨
          t.dispatch key bits text platform = some .none := by
    intro key bits text platform
    rw [hrun, Option.some.injEq, Keysym.code_getD_none_iff]
  have hentryAccepted : ∀ e ∈ t.entries.toList, Keysym.none ∈ e.resolution.keysyms →
      ∃ s ∈ r.primary.symbols, s.code = .none := by
    intro e he hnone
    -- zero is below the vendor range
    exact (((hentry e he).provides _ hnone).accepted_or_vendor hvendor).resolve_right (by decide)
  refine ⟨hiff, ?_, fun position h => htext _ h, hentryAccepted, ?_⟩
  · rw [← DecisionTable.exists_dispatch_eq_some_iff
      fun e he k hk => (hentry e he).exists_evaluate hk]
    refine exists_congr fun key => exists_congr fun bits => exists_congr fun text =>
      exists_congr fun platform => ?_
    rw [hiff]
    constructor
    · rintro ⟨h, hsome⟩
      exact h.resolve_left hsome
    · intro h
      exact ⟨.inr h, by simp [h]⟩
  · intro hnonzero key bits text platform
    rw [hiff]
    apply or_iff_left
    intro h
    cases DecisionTable.answers_of_dispatch_eq_some h with
    | text h =>
      obtain ⟨s, hs, -, hcode⟩ := htext _ (SortedMap.get?_eq_some_iff.1 h)
      exact hnonzero s hs hcode
    | key h hcode =>
      obtain ⟨s, hs, hcode⟩ := hentryAccepted _ (List.mem_of_find?_eq_some h) hcode
      exact hnonzero s hs hcode

/-- The module rendered for the table of any headers answers that there is no keysym where the table
has none, and where an accepted symbol with that code has brought the code into the table. -/
theorem rustModule_tellsNone {sources : SourceTexts} {overrides : Overrides}
    {table : DecisionTable} (h : (buildTable sources overrides).outcome = .ok table)
    {name : String} (hname : Token.IsIdentifier name) :
    ∃ p primary, RustProgram.read? (RustModule.render ⟨name⟩ table) = some p ∧
      (PrimaryTable.ofText sources.keysymdef).outcome = .ok primary ∧
      p.TellsNone table primary.symbols := by
  obtain ⟨toolkit, -, hlists⟩ := exists_lists_of_buildTable h
  obtain ⟨primary, hprimary, vendor, hvendor, _, -, hresolve⟩ := buildTable_outcome_eq_ok_iff.1 h
  have hparsed := PrimaryTable.parsed_of_ofText hprimary
  refine ⟨RustProgram.ofTable name table, primary, ?_, hprimary, ?_⟩
  · exact RustProgram.read?_render hname fun e he =>
      e.isIdentifier_constant (hlists.isWord e he).2
  · exact RustProgram.tellsNone_of_run (RustProgram.run_ofTable hlists.names_nodup)
      (fun e he => Resolver.sourcesEntry_of_mem hparsed hresolve he)
      (fun q hq => Resolver.exists_of_mem_textCases hparsed.consistent hresolve hq) hvendor

/-- No accepted symbol of `swapHeaders` has the code, so the answer to the key that is not listed
tells that the table has none. -/
theorem rustModule_tellsNone_swapHeaders :
    (buildTable swapHeaders Overrides.builtin).outcome = .ok swapTable ∧
      Token.IsIdentifier "qt_key_to_keysym" ∧
      ∃ p primary, RustProgram.read? (RustModule.render ⟨"qt_key_to_keysym"⟩ swapTable) = some p ∧
        (PrimaryTable.ofText swapHeaders.keysymdef).outcome = .ok primary ∧
        p.TellsNone swapTable primary.symbols ∧
        p.run 0x42 0 "" .other = some Keysym.none.code := by
  have hname : Token.IsIdentifier "qt_key_to_keysym" := by decide
  obtain ⟨p, primary, hread, hprimary, htells⟩ := rustModule_tellsNone buildTable_swapHeaders hname
  refine ⟨buildTable_swapHeaders, hname, p, primary, hread, hprimary, htells, ?_⟩
  rw [htells.run_eq_none_iff]
  decide

/-- Headers whose only symbol has the code zero. -/
def zeroHeaders : SourceTexts where
  keysymdef := "#define XK_a 0x0 /* U+0061 LATIN SMALL LETTER A */\n"
  vendor := ""
  toolkit := "    Key_A = 0x41,\n"

/-- The table of `zeroHeaders`: a character and an entry have the code. -/
def zeroTable : DecisionTable where
  textCases := .ofList [(0x61, .none)]
  entries := #[⟨"A", 0x41, .fixed .none⟩]
  diagnostics := []

theorem buildTable_zeroHeaders :
    (buildTable zeroHeaders Overrides.builtin).outcome = .ok zeroTable := by
  decide +kernel

/-- The table knows the key and the character, and the function answers that there is no keysym. -/
theorem rustModule_ambiguous_zeroHeaders :
    (buildTable zeroHeaders Overrides.builtin).outcome = .ok zeroTable ∧
      ∃ p, RustProgram.read? (RustModule.render ⟨"qt_key_to_keysym"⟩ zeroTable) = some p ∧
        p.run 0x41 0 "" .other = some Keysym.none.code ∧
        zeroTable.dispatch 0x41 0 "" .other ≠ none ∧
        p.run 0 0 "a" .other = some Keysym.none.code ∧
        zeroTable.dispatch 0 0 "a" .other ≠ none := by
  have hname : Token.IsIdentifier "qt_key_to_keysym" := by decide
  have hnames : (zeroTable.entries.toList.map (·.name)).Nodup := by decide
  have hconstants : ∀ e ∈ zeroTable.entries.toList, Token.IsIdentifier e.constant := by decide
  refine ⟨buildTable_zeroHeaders, _, RustProgram.read?_render hname hconstants, ?_, by decide, ?_,
    by decide⟩
  · rw [RustProgram.run_ofTable hnames]
    decide
  · rw [RustProgram.run_ofTable hnames]
    decide

end KeyDispatch
