import KeyDispatch.Proofs.DroppedLines
import KeyDispatch.Proofs.FirstFault

/-!
# Lines appended to a primary header

Lines behind the last one of a primary header take nothing back. The symbols accepted so far stay
and the new ones come behind them (`PrimaryTable.Consistent.prefix_foldl_takeLine`), and from this
alone it follows what the indices may do (`PrimaryTable.Extends.of_prefix_symbols`): a position
keeps its name, a form with several spellings keeps them, and a form with one spelling keeps it or
gets a second one. The keysyms of characters stay in every table that is made
(`ofText_append_extends`).
-/

namespace KeyDispatch

open Text (bareLines lowercase)

theorem Text.bareLines_append {front : String} (h : EndsLine front.toList) (more : String) :
    bareLines (front ++ more) = bareLines front ++ bareLines more := by
  rw [bareLines, String.toList_append, lines_append h, List.map_append]
  rfl

/-! ## Spellings of more names -/

namespace CaseIndex

variable {names names' : List String} {folded name : String}

theorem Several.mono (h : Several names folded) (hsub : names ⊆ names') :
    Several names' folded := by
  obtain ⟨a, ha, b, hb, hfa, hfb, hab⟩ := h
  exact ⟨a, hsub ha, b, hsub hb, hfa, hfb, hab⟩

/-- The one spelling of a form stays the only one, or another one makes it one of several. -/
theorem Only.mono (h : Only names folded name) (hsub : names ⊆ names') :
    Only names' folded name ∨ Several names' folded :=
  only_or_several (hsub h.1) h.2.1

/-- A form that has a spelling has several exactly if it has another one. -/
theorem several_iff_of_mem (hmem : name ∈ names) (hfold : lowercase name = folded) :
    Several names folded ↔ ∃ other ∈ names, lowercase other = folded ∧ other ≠ name := by
  constructor
  · rintro ⟨a, ha, b, hb, hfa, hfb, hab⟩
    by_cases he : a = name
    · exact ⟨b, hb, hfb, fun hb' => hab (he.trans hb'.symm)⟩
    · exact ⟨a, ha, hfa, he⟩
  · rintro ⟨other, hother, hfother, hne⟩
    exact ⟨other, hother, name, hmem, hfother, hfold, hne⟩

end CaseIndex

/-! ## Tables with more symbols -/

namespace PrimaryTable

/-- The second table has all that the first one has: the symbols, first of all and in their order,
the names that hold positions, the forms with several spellings, and the keysyms of characters. A
form with one spelling has no other one instead; it has several now if a symbol spells it
otherwise. -/
structure Extends (t u : PrimaryTable) : Prop where
  symbols_prefix : t.symbols <+: u.symbols
  get?_eq : ∀ name s, t.get? name = some s → u.get? name = some s
  holder_eq : ∀ position name, t.unicodeIndex.get? position = some name →
    u.unicodeIndex.get? position = some name
  isNonUnique : ∀ query, t.caseIndex.isNonUnique query = true →
    u.caseIndex.isNonUnique query = true
  lookup : ∀ query name, t.caseIndex.lookup query = some name →
    (u.caseIndex.lookup query = some name ∧ u.caseIndex.isNonUnique query = false) ∨
    (u.caseIndex.lookup query = none ∧ u.caseIndex.isNonUnique query = true)
  isNonUnique_iff : ∀ query name, t.caseIndex.lookup query = some name →
    (u.caseIndex.isNonUnique query = true ↔
      ∃ s ∈ u.symbols, lowercase s.name = lowercase query ∧ s.name ≠ name)
  textCases_get? : ∀ position code, (Resolver.textCases t).get? position = some code →
    (Resolver.textCases u).get? position = some code

/-- In a table whose parts agree, all of this follows from the symbols. -/
theorem Extends.of_prefix_symbols {t u : PrimaryTable} (ht : t.Consistent) (hu : u.Consistent)
    (h : t.symbols <+: u.symbols) : t.Extends u := by
  have hnames : t.symbols.map (·.name) ⊆ u.symbols.map (·.name) := List.map_subset _ h.subset
  have hlookup : ∀ query name, t.caseIndex.lookup query = some name →
      CaseIndex.Only (t.symbols.map (·.name)) (lowercase query) name := by
    intro query name hname
    rwa [ht.caseIndex_eq, CaseIndex.lookup_ofNames_iff] at hname
  have hseveral : ∀ query, u.caseIndex.isNonUnique query = true ↔
      CaseIndex.Several (u.symbols.map (·.name)) (lowercase query) := by
    intro query
    rw [hu.caseIndex_eq, CaseIndex.isNonUnique_ofNames_iff]
  refine ⟨h, fun name s hs => h.find?_eq_some hs, ?_, ?_, ?_, ?_, ?_⟩
  · intro position name hholder
    rw [ht.unicodeIndex_eq] at hholder
    rw [hu.unicodeIndex_eq]
    obtain ⟨s, hs, rfl⟩ := Option.map_eq_some_iff.1 hholder
    rw [h.find?_eq_some hs, Option.map_some]
  · intro query hquery
    rw [ht.caseIndex_eq, CaseIndex.isNonUnique_ofNames_iff] at hquery
    exact (hseveral query).2 (hquery.mono hnames)
  -- the only spelling stays the only one, or a later name joins it
  · intro query name hname
    rcases (hlookup query name hname).mono hnames with honly | hmany
    · left
      constructor
      · rwa [hu.caseIndex_eq, CaseIndex.lookup_ofNames_iff]
      · rw [Bool.eq_false_iff, Ne, hseveral]
        exact honly.not_several
    · refine .inr ⟨?_, (hseveral query).2 hmany⟩
      rw [Option.eq_none_iff_forall_ne_some]
      intro other hother
      rw [hu.caseIndex_eq, CaseIndex.lookup_ofNames_iff] at hother
      exact hother.not_several hmany
  · intro query name hname
    obtain ⟨hmem, hfold, -⟩ := hlookup query name hname
    rw [hseveral, CaseIndex.several_iff_of_mem (hnames hmem) hfold]
    simp only [List.mem_map, exists_exists_and_eq_and]
  · intro position code hcode
    rw [Resolver.textCases_get?_eq_find? ht] at hcode
    rw [Resolver.textCases_get?_eq_find? hu]
    obtain ⟨s, hs, rfl⟩ := Option.map_eq_some_iff.1 hcode
    rw [h.find?_eq_some hs, Option.map_some]

/-- More lines keep the parts of a table in step and add symbols behind those that are there, by
induction on the lines. -/
theorem Consistent.prefix_foldl_takeLine {t : PrimaryTable} (h : t.Consistent)
    (ls : List (List Char)) :
    (ls.foldl PrimaryTable.takeLine t).Consistent ∧
      t.symbols <+: (ls.foldl PrimaryTable.takeLine t).symbols := by
  induction ls generalizing t with
  | nil => exact ⟨h, List.prefix_refl t.symbols⟩
  | cons line ls ih =>
    obtain ⟨hconsistent, hprefix⟩ := ih (h.takeLine line)
    refine ⟨hconsistent, List.IsPrefix.trans ?_ hprefix⟩
    rw [h.symbols_takeLine]
    exact List.prefix_append t.symbols _

/-- The keysyms of characters in a table are those of the primary header. -/
theorem textCases_of_buildTable {sources : SourceTexts} {overrides : Overrides}
    {table : DecisionTable} {t : PrimaryTable}
    (h : (buildTable sources overrides).outcome = .ok table)
    (ht : (ofText sources.keysymdef).outcome = .ok t) :
    table.textCases = Resolver.textCases t := by
  obtain ⟨primary, hprimary, vendor, -, toolkit, -, hresolve⟩ := buildTable_outcome_eq_ok_iff.1 h
  rw [ht] at hprimary
  obtain rfl := Except.ok.inj hprimary
  obtain ⟨exchanged, -, rfl⟩ := Resolver.exists_exchanged_of_resolve hresolve
  rfl

end PrimaryTable

/-- A primary header with lines appended is read as a table that has all that was read before; and a
table made from it translates the characters that any table made from the header alone does, by the
same keysyms, whatever the other headers and the overrides are. -/
theorem ofText_append_extends {front more : String} (hends : Text.EndsLine front.toList)
    {t u : PrimaryTable} (ht : (PrimaryTable.ofText front).outcome = .ok t)
    (hu : (PrimaryTable.ofText (front ++ more)).outcome = .ok u) :
    t.Extends u ∧
    ∀ vendor toolkit overrides vendor' toolkit' overrides' table table',
      (buildTable ⟨front, vendor, toolkit⟩ overrides).outcome = .ok table →
      (buildTable ⟨front ++ more, vendor', toolkit'⟩ overrides').outcome = .ok table' →
      ∀ position code, table.textCases.get? position = some code →
        table'.textCases.get? position = some code := by
  have hextends : t.Extends u := by
    obtain ⟨-, rfl⟩ := PrimaryTable.ofText_outcome_eq_ok_iff_lines.1 ht
    obtain ⟨-, rfl⟩ := PrimaryTable.ofText_outcome_eq_ok_iff_lines.1 hu
    rw [Text.bareLines_append hends, List.foldl_append]
    have hfront := (PrimaryTable.consistent_empty.prefix_foldl_takeLine (bareLines front)).1
    obtain ⟨hconsistent, hprefix⟩ := hfront.prefix_foldl_takeLine (bareLines more)
    exact .of_prefix_symbols hfront hconsistent hprefix
  refine ⟨hextends, ?_⟩
  intro vendor toolkit overrides vendor' toolkit' overrides' table table' htable htable'
  rw [PrimaryTable.textCases_of_buildTable htable ht,
    PrimaryTable.textCases_of_buildTable htable' hu]
  exact hextends.textCases_get?

/-- A header with one spelling of `a`, which stands for its character. -/
def letterHeader : String := "#define XK_a 0x61 /* U+0061 LATIN SMALL LETTER A */\n"

/-- Lines that spell `a` in the other case, redefine it, and declare its character again. -/
def moreLetters : String :=
  "#define XK_A 0x41\n#define XK_a 0x62\n#define XK_b 0x63 /* U+0061 AGAIN */\r\n"

/-- The one spelling of `a` becomes one of two, and its character stays with it. -/
theorem ofText_append_extends_moreLetters :
    ∃ t u, Text.EndsLine letterHeader.toList ∧
      (PrimaryTable.ofText letterHeader).outcome = .ok t ∧
      (PrimaryTable.ofText (letterHeader ++ moreLetters)).outcome = .ok u ∧ t.Extends u ∧
      t.caseIndex.lookup "A" = some "a" ∧ u.caseIndex.isNonUnique "A" = true ∧
      u.symbols.map (·.name) = ["a", "A", "b"] ∧ u.unicodeIndex.get? 0x61 = some "a" := by
  have hends : Text.EndsLine letterHeader.toList := by
    have hlast : letterHeader.toList.getLast? = some '\n' := by decide
    intro c hc
    rw [hlast] at hc
    exact (Option.some.inj hc).symm
  have ht : (PrimaryTable.ofText letterHeader).outcome =
      .ok (.ofDefinitions (PrimaryTable.definitionLines letterHeader)) :=
    PrimaryTable.ofText_outcome_eq_ok_iff.2 ⟨by decide +kernel, rfl⟩
  have hu : (PrimaryTable.ofText (letterHeader ++ moreLetters)).outcome =
      .ok (.ofDefinitions (PrimaryTable.definitionLines (letterHeader ++ moreLetters))) :=
    PrimaryTable.ofText_outcome_eq_ok_iff.2 ⟨by decide +kernel, rfl⟩
  have hextends := (ofText_append_extends hends ht hu).1
  exact ⟨_, _, hends, ht, hu, hextends, by decide +kernel, by decide +kernel, by decide +kernel,
    by decide +kernel⟩

end KeyDispatch
