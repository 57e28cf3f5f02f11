import KeyDispatch.Proofs.CaseLabels
import KeyDispatch.Proofs.CppContent
import KeyDispatch.Proofs.RunPlan
import KeyDispatch.Proofs.RustContent

/-!
# The text decides the table

An artifact writes two tables of headers alike exactly if they agree in all that it says of a table
(`Artifact.render_eq_iff_saysSame`). So the check of an output file, which compares texts, misses no
such change of the table and reports no other one.
-/

namespace KeyDispatch

/-! ## Cases of one unit -/

/-- The text cases that a header writes. -/
def CppHeader.unitCases (m : SortedMap UInt32 Keysym) : SortedMap UInt32 Keysym where
  toList := m.toList.filter fun p => isUnit p.1
  ascending := m.ascending.filter _

theorem CppHeader.get?_unitCases (m : SortedMap UInt32 Keysym) (position : UInt32) :
    (unitCases m).get? position = if position ≤ 0xFFFF then m.get? position else none := by
  apply Option.ext
  intro keysym
  rw [SortedMap.get?_eq_some_iff, unitCases, List.mem_filter, isUnit, decide_eq_true_iff,
    ← SortedMap.get?_eq_some_iff]
  split
  · next h => exact and_iff_left h
  · next h =>
    constructor
    · exact fun hmem => absurd hmem.2 h
    · intro hnone
      cases hnone

theorem CppHeader.unitCases_eq_iff {m n : SortedMap UInt32 Keysym} :
    unitCases m = unitCases n ↔ ∀ position ≤ 0xFFFF, m.get? position = n.get? position := by
  constructor
  · intro h position hunit
    have hget := congrArg (·.get? position) h
    simpa only [get?_unitCases, if_pos hunit] using hget
  · intro h
    apply SortedMap.ext_get?
    intro position
    rw [get?_unitCases, get?_unitCases]
    split
    · next hunit => exact h position hunit
    · rfl

/-- The cases of a header's key switch are told by the names and resolutions of the entries. -/
theorem CppHeader.flatMap_keyCase_eq {as bs : List Entry}
    (h : as.map Entry.case = bs.map Entry.case) : as.flatMap keyCase = bs.flatMap keyCase := by
  have hcase : ∀ es : List Entry, es.flatMap keyCase =
      (es.map Entry.case).flatMap fun c => keyCase ⟨c.1, 0, c.2⟩ := by
    intro es
    rw [List.flatMap_map]
    rfl
  rw [hcase as, hcase bs, h]

/-! ## Artifacts -/

namespace Artifact

/-- The tables agree in what the artifact says of a table. A module says all but the diagnostics; a
header leaves out the codes of the keys, and the characters of two UTF-16 units. -/
def SaysSame : Artifact → DecisionTable → DecisionTable → Prop
  | rustModule _, t, u => t.textCases = u.textCases ∧ t.entries = u.entries
  | cppHeader _, t, u =>
    t.entries.toList.map Entry.case = u.entries.toList.map Entry.case ∧
      ∀ position ≤ 0xFFFF, t.textCases.get? position = u.textCases.get? position

variable {t u : DecisionTable}

/-- Whatever names it leaves open, an artifact writes tables alike exactly if they agree in what it
says. -/
theorem render_eq_iff_saysSame (ht : ∀ e ∈ t.entries.toList, e.IsNamed)
    (hu : ∀ e ∈ u.entries.toList, e.IsNamed) (artifact : Artifact) :
    artifact.render t = artifact.render u ↔ artifact.SaysSame t u := by
  cases artifact with
  | rustModule m =>
    constructor
    · intro h
      obtain ⟨htext, hentries⟩ := RustModule.content_of_render_eq ht hu h
      exact ⟨SortedMap.ext_toList htext, hentries⟩
    · rintro ⟨htext, hentries⟩
      rw [render, RustModule.render, RustModule.lines, htext, hentries]
      rfl
  | cppHeader header =>
    rw [SaysSame, ← CppHeader.unitCases_eq_iff]
    constructor
    · intro h
      obtain ⟨htext, hcases⟩ := CppHeader.content_of_render_eq ht hu h
      exact ⟨hcases, SortedMap.ext_toList htext⟩
    · rintro ⟨hcases, htext⟩
      have hunits := congrArg SortedMap.toList htext
      have hkeys := CppHeader.flatMap_keyCase_eq hcases
      simp only [CppHeader.unitCases] at hunits
      simp only [render, CppHeader.render, CppHeader.lines, CppHeader.keySwitch, hunits, hkeys]

end Artifact

/-- The names in a table of headers consist of word characters. -/
theorem DecisionTable.isNamed_of_buildTable {sources : SourceTexts} {overrides : Overrides}
    {table : DecisionTable} (h : (buildTable sources overrides).outcome = .ok table) :
    ∀ e ∈ table.entries.toList, e.IsNamed := by
  obtain ⟨toolkit, -, hlists⟩ := exists_lists_of_buildTable h
  exact fun e he => (hlists.isWord e he).2

/-- For tables of any headers and any artifact, whatever its open names: the texts are equal exactly
if the tables agree in all that the artifact says, and where a file holds the text of the one table,
the check against that of the other one succeeds exactly if they agree. -/
theorem artifact_decides_table {sources sources' : SourceTexts} {overrides overrides' : Overrides}
    {table table' : DecisionTable} (h : (buildTable sources overrides).outcome = .ok table)
    (h' : (buildTable sources' overrides').outcome = .ok table') (artifact : Artifact) :
    (artifact.render table = artifact.render table' ↔ artifact.SaysSame table table') ∧
      ∀ (g : GuardedDisk) (path : String), g.readText path = .ok (artifact.render table) →
        ((checkOutput path (artifact.render table') :
            LoggedT (StateM GuardedDisk) RunFailure Unit).outcome g = .ok () ↔
          artifact.SaysSame table table') := by
  have hiff := Artifact.render_eq_iff_saysSame (DecisionTable.isNamed_of_buildTable h)
    (DecisionTable.isNamed_of_buildTable h') artifact
  refine ⟨hiff, ?_⟩
  intro g path hread
  rw [checkOutput_outcome_eq_ok_iff, hread, Except.ok.injEq, hiff]

/-- The headers of `sharedCodeTable`, with a code of its own for each key. -/
def recodedHeaders : SourceTexts :=
  { sharedCodeHeaders with toolkit := "    Key_A = 0x41,\n    Key_B = 0x42,\n" }

/-- The table of `recodedHeaders`. -/
def recodedTable : DecisionTable :=
  { sharedCodeTable with entries := #[⟨"A", 0x41, .fixed ⟨0x61⟩⟩, ⟨"B", 0x42, .fixed ⟨0x62⟩⟩] }

theorem buildTable_recodedHeaders :
    (buildTable recodedHeaders Overrides.empty).outcome = .ok recodedTable := by
  decide +kernel

/-- Another code of a key changes the standard module, and the check finds it, but no header. -/
theorem artifact_decides_table_recodedHeaders :
    (buildTable sharedCodeHeaders Overrides.builtin).outcome = .ok sharedCodeTable ∧
      (buildTable recodedHeaders Overrides.empty).outcome = .ok recodedTable ∧
      RustModule.standard.render sharedCodeTable ≠ RustModule.standard.render recodedTable ∧
      (∀ (g : GuardedDisk) (path : String),
        g.readText path = .ok (RustModule.standard.render sharedCodeTable) →
        (checkOutput path (RustModule.standard.render recodedTable) :
          LoggedT (StateM GuardedDisk) RunFailure Unit).outcome g ≠ .ok ()) ∧
      ∀ header : CppHeader, header.render sharedCodeTable = header.render recodedTable := by
  have hdecides := artifact_decides_table buildTable_sharedCodeHeaders buildTable_recodedHeaders
  have hmodule : ¬ (Artifact.rustModule .standard).SaysSame sharedCodeTable recodedTable := by
    rintro ⟨-, hentries⟩
    exact absurd hentries (by decide)
  refine ⟨buildTable_sharedCodeHeaders, buildTable_recodedHeaders, ?_, ?_, ?_⟩
  · exact fun he => hmodule ((hdecides (.rustModule .standard)).1.1 he)
  · exact fun g path hread hcheck =>
      hmodule (((hdecides (.rustModule .standard)).2 g path hread).1 hcheck)
  · exact fun header => (hdecides (.cppHeader header)).1.2 ⟨by decide, fun _ _ => rfl⟩

end KeyDispatch
