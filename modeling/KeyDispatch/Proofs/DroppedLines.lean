import KeyDispatch.Proofs.DefinitionOrder
import KeyDispatch.Proofs.LineEnds

/-!
# Lines that a primary header can do without

A line of the primary header counts only if its definition is accepted. `Edited` relates the lines
of a text to those of another one from which any lines that are not accepted have gone and to which
any lines without the marker have come. The edited text is read as the same symbols with the same
indices, by induction on the edits (`PrimaryTable.Consistent.sameContent_of_edited`), so the
generated texts are the same; and a text of the accepted lines alone has nothing to drop
(`ofText_ignoresDropped`).
-/

namespace KeyDispatch

/-! ## What a line comes to -/

namespace PrimarySymbol

/-- What a line of the primary header comes to, wherever it stands: an error, no definition, or the
symbol that it defines. -/
def verdict (line : List Char) : Option (Option PrimarySymbol) :=
  match Define.read? marker Text.isLowerHexDigit line with
  | none => if marker.isPrefixOf line then none else some none
  | some d => (Text.readWord d.digits).map fun code => some (ofDefine d code)

/-- The symbol that a line of the primary header defines. -/
def onLine? (line : List Char) : Option PrimarySymbol := (verdict line).join

theorem toOption_ofLine (l : Numbered (List Char)) :
    (ofLine l).toOption = verdict l.content := by
  unfold ofLine Define.ofLine verdict
  cases Define.read? marker Text.isLowerHexDigit l.content with
  | none => by_cases h : marker.isPrefixOf l.content = true <;> simp [h, Except.toOption]
  | some d => cases h : Text.readWord d.digits <;> simp [h, Except.toOption]

theorem foundOn_ofLine (l : Numbered (List Char)) : foundOn ofLine l = onLine? l.content := by
  rw [onLine?, ← toOption_ofLine, foundOn]
  cases ofLine l <;> rfl

theorem verdict_append_blank {c : Char} (h : Text.isBlank c = true) (line : List Char) :
    verdict (line ++ [c]) = verdict line := by
  have hmarker : marker.getLast? ≠ some c := Text.some_ne_of_isBlank h rfl
  rw [verdict, verdict, Define.read?_append_blank h hmarker (Text.isLowerHexDigit_of_isBlank h),
    isPrefixOf_append_singleton hmarker]

/-- Blanks at the end of a line do not matter. -/
theorem verdict_trimEnd (line : List Char) : verdict (Text.trimEnd line) = verdict line :=
  Text.apply_trimEnd (fun line _ hc => verdict_append_blank hc line) line

/-- A line without the marker at its front is no definition and no error. -/
theorem verdict_of_not_marker {line : List Char} (h : ¬ marker <+: line) :
    verdict line = some none := by
  have hstrip : strip? marker line = none := by
    rw [← Option.not_isSome_iff_eq_none, ← isPrefixOf_eq_isSome_strip?]
    rwa [List.isPrefixOf_iff_prefix]
  have hread : Define.read? marker Text.isLowerHexDigit line = none := by
    rw [Define.read?_eq, hstrip]
    rfl
  rw [verdict, hread, isPrefixOf_eq_isSome_strip?, hstrip]
  rfl

end PrimarySymbol

open PrimarySymbol (verdict onLine? verdict_trimEnd verdict_of_not_marker)
open Text (bareLines)

namespace PrimaryTable

/-- The table after the next line. -/
def takeLine (t : PrimaryTable) (line : List Char) : PrimaryTable :=
  match onLine? line with
  | some d => t.take d
  | none => t

theorem definitions_failure_eq_none_iff {source : String} :
    (definitions source).failure = none ↔ ∀ line ∈ bareLines source, verdict line ≠ none := by
  have hlines : Text.lines source.toList = (numberedLines source).map (·.content) :=
    (map_content_numberFrom 1 _).symm
  rw [definitions, scan_failure_eq_none_iff, bareLines, hlines, List.map_map, List.forall_mem_map]
  simp only [Function.comp_def, verdict_trimEnd, PrimarySymbol.toOption_ofLine]

/-- A text is read line by line, whatever the line ends are. -/
theorem ofDefinitions_definitionLines (source : String) :
    ofDefinitions (definitionLines source) = (bareLines source).foldl takeLine empty := by
  have hread : foundOn PrimarySymbol.ofLine = onLine? ∘ Numbered.content :=
    funext PrimarySymbol.foundOn_ofLine
  have htrim : ∀ (t : PrimaryTable) line, t.takeLine (Text.trimEnd line) = t.takeLine line := by
    intro t line
    rw [takeLine, takeLine, onLine?, onLine?, verdict_trimEnd]
  have hlines : definitionLines source = (Text.lines source.toList).filterMap onLine? := by
    rw [definitionLines, hread, ← List.filterMap_map]
    exact congrArg _ (map_content_numberFrom 1 _)
  rw [hlines, ofDefinitions, List.foldl_filterMap, bareLines, List.foldl_map]
  simp only [htrim]
  congr 1
  funext t line
  unfold takeLine
  cases onLine? line <;> rfl

/-- A text is read exactly if each of its lines can be read, and then as the table of its lines. -/
theorem ofText_outcome_eq_ok_iff_lines {source : String} {t : PrimaryTable} :
    (ofText source).outcome = .ok t ↔
      (∀ line ∈ bareLines source, verdict line ≠ none) ∧
        t = (bareLines source).foldl takeLine empty := by
  rw [ofText_outcome_eq_ok_iff, definitions_failure_eq_none_iff, ofDefinitions_definitionLines]

end PrimaryTable

/-! ## Lines that are accepted, and edits of the others -/

/-- The symbol that a line adds to the accepted ones `earlier`. -/
def acceptedOn? (earlier : List PrimarySymbol) (line : List Char) : Option PrimarySymbol :=
  (onLine? line).filter fun d => judge earlier d = .accepted

/-- The lines that add to the accepted symbols `earlier`. -/
def acceptedLines (earlier : List PrimarySymbol) : List (List Char) → List (List Char)
  | [] => []
  | line :: ls =>
    match acceptedOn? earlier line with
    | none => acceptedLines earlier ls
    | some d => line :: acceptedLines (earlier ++ [d]) ls

/-- The second lines are the first, which follow the accepted symbols `earlier`, without some that
are no accepted definitions, and with others that do not start as definitions do. -/
inductive Edited : List PrimarySymbol → List (List Char) → List (List Char) → Prop where
  | nil {earlier} : Edited earlier [] []
  | keep {earlier line ls ls'} (h : Edited (earlier ++ (acceptedOn? earlier line).toList) ls ls') :
    Edited earlier (line :: ls) (line :: ls')
  | delete {earlier line ls ls'} (hline : acceptedOn? earlier line = none)
    (h : Edited earlier ls ls') : Edited earlier (line :: ls) ls'
  | insert {earlier line ls ls'} (hline : ¬ PrimarySymbol.marker <+: line)
    (h : Edited earlier ls ls') : Edited earlier ls (line :: ls')

/-- To keep the accepted lines only is an edit. -/
theorem edited_acceptedLines (earlier : List PrimarySymbol) (ls : List (List Char)) :
    Edited earlier ls (acceptedLines earlier ls) := by
  induction ls generalizing earlier with
  | nil => exact .nil
  | cons line ls ih =>
    rw [acceptedLines]
    cases h : acceptedOn? earlier line with
    | none => exact .delete h (ih earlier)
    | some d =>
      apply Edited.keep
      rw [h]
      exact ih (earlier ++ [d])

theorem acceptedLines_sublist (earlier : List PrimarySymbol) (ls : List (List Char)) :
    (acceptedLines earlier ls).Sublist ls := by
  induction ls generalizing earlier with
  | nil => exact List.Sublist.slnil
  | cons line ls ih =>
    rw [acceptedLines]
    cases acceptedOn? earlier line with
    | none => exact (ih earlier).cons line
    | some d => exact (ih (earlier ++ [d])).cons_cons line

/-- Every text has a text of its accepted lines. -/
theorem exists_bareLines_eq_acceptedLines (source : String) :
    ∃ kept, bareLines kept = acceptedLines [] (bareLines source) := by
  have hline : ∀ line ∈ acceptedLines [] (bareLines source), '\n' ∉ line ∧ Text.trimEnd line = line :=
    fun line h => Text.of_mem_bareLines ((acceptedLines_sublist [] _).subset h)
  refine ⟨_, (Text.bareLines_ofList fun line h => (hline line h).1).trans ?_⟩
  exact (List.map_congr_left fun line h => (hline line h).2).trans (List.map_id _)

/-- No edit brings an error. -/
theorem Edited.verdict_ne_none {earlier : List PrimarySymbol} {ls ls' : List (List Char)}
    (h : Edited earlier ls ls') (hls : ∀ line ∈ ls, verdict line ≠ none) :
    ∀ line ∈ ls', verdict line ≠ none := by
  induction h with
  | nil => exact hls
  | keep _ ih =>
    obtain ⟨hline, hrest⟩ := List.forall_mem_cons.1 hls
    exact List.forall_mem_cons.2 ⟨hline, ih hrest⟩
  | delete _ _ ih => exact ih (List.forall_mem_cons.1 hls).2
  | insert hline _ ih =>
    refine List.forall_mem_cons.2 ⟨?_, ih hls⟩
    rw [verdict_of_not_marker hline]
    exact Option.some_ne_none _

namespace PrimaryTable

theorem SameContent.takeLine {t u : PrimaryTable} (h : t.SameContent u) (line : List Char) :
    (t.takeLine line).SameContent (u.takeLine line) := by
  unfold PrimaryTable.takeLine
  split
  · exact h.take _
  · exact h

namespace Consistent

variable {t : PrimaryTable} {line : List Char}

theorem takeLine (h : t.Consistent) (line : List Char) : (t.takeLine line).Consistent := by
  unfold PrimaryTable.takeLine
  split
  · exact h.take _
  · exact h

/-- An accepted line adds its symbol and is not counted. -/
theorem takeLine_of_accepted (h : t.Consistent) {d : PrimarySymbol}
    (hline : acceptedOn? t.symbols line = some d) : t.takeLine line = (t.accept d).1 := by
  obtain ⟨hon, hjudge⟩ := Option.filter_eq_some_iff.1 hline
  rw [PrimaryTable.takeLine, hon]
  simp only
  rw [h.take_eq, if_pos (of_decide_eq_true hjudge)]

/-- A line that is not accepted leaves a trace in the tally only. -/
theorem sameContent_takeLine (h : t.Consistent) (hline : acceptedOn? t.symbols line = none) :
    t.SameContent (t.takeLine line) := by
  unfold PrimaryTable.takeLine
  cases hon : onLine? line with
  | none => exact .refl t
  | some d =>
    apply h.sameContent_take
    simpa using Option.filter_eq_none_iff.1 hline d hon

theorem symbols_takeLine (h : t.Consistent) (line : List Char) :
    (t.takeLine line).symbols = t.symbols ++ (acceptedOn? t.symbols line).toList := by
  cases hline : acceptedOn? t.symbols line with
  | none => simpa using (h.sameContent_takeLine hline).symbols.symm
  | some d =>
    rw [h.takeLine_of_accepted hline]
    rfl

/-- Edited lines give a table of the same content, by induction on the edits: before each of them
the two tables have the same content already. -/
theorem sameContent_of_edited {t u : PrimaryTable} (ht : t.Consistent) (htu : t.SameContent u)
    {ls ls' : List (List Char)} (h : Edited t.symbols ls ls') :
    (ls.foldl PrimaryTable.takeLine t).SameContent (ls'.foldl PrimaryTable.takeLine u) := by
  generalize hearlier : t.symbols = earlier at h
  induction h generalizing t u with
  | nil => exact htu
  | @keep earlier line ls ls' _ ih =>
    refine ih (ht.takeLine line) (htu.takeLine line) ?_
    rw [ht.symbols_takeLine, hearlier]
  | @delete earlier line ls ls' hline _ ih =>
    subst hearlier
    have hsame := ht.sameContent_takeLine hline
    exact ih (ht.takeLine line) (hsame.symm.trans htu) hsame.symbols.symm
  | @insert earlier line ls ls' hline _ ih =>
    have hon : u.takeLine line = u := by
      rw [PrimaryTable.takeLine, onLine?, verdict_of_not_marker hline]
      rfl
    rw [List.foldl_cons, hon]
    exact ih ht htu hearlier

/-- The accepted lines alone leave nothing to count. -/
theorem tally_foldl_acceptedLines (h : t.Consistent) (ls : List (List Char)) :
    ((acceptedLines t.symbols ls).foldl PrimaryTable.takeLine t).tally = t.tally := by
  induction ls generalizing t with
  | nil => rfl
  | cons line ls ih =>
    rw [acceptedLines]
    cases hline : acceptedOn? t.symbols line with
    | none => exact ih h
    | some d =>
      have hnext := ih (h.takeLine line)
      rw [h.symbols_takeLine, hline] at hnext
      rw [List.foldl_cons]
      refine hnext.trans ?_
      rw [h.takeLine_of_accepted hline]
      rfl

end Consistent

/-- Tables of the same content are the same to the resolver. -/
theorem SameContent.resolve_eq {t u : PrimaryTable} (h : t.SameContent u) (ht : t.Consistent)
    (hu : u.Consistent) (vendor : VendorTable) (overrides : Overrides) (toolkit : ToolkitTable) :
    (Resolver.resolve ⟨t, vendor, overrides⟩ toolkit).outcome =
      (Resolver.resolve ⟨u, vendor, overrides⟩ toolkit).outcome := by
  have hnaive : Resolver.naive ⟨t, vendor, overrides⟩ = Resolver.naive ⟨u, vendor, overrides⟩ := by
    unfold Resolver.naive
    rw [h.symbols]
  rw [Resolver.resolve_outcome_eq_naive ht, Resolver.resolve_outcome_eq_naive hu, hnaive]

end PrimaryTable

/-- The two primary headers give the same table, or the same error, and the same texts, whatever the
other headers and the overrides are. -/
structure SameArtifacts (source edited : String) : Prop where
  buildTable_eq : ∀ vendor toolkit overrides,
    (buildTable ⟨source, vendor, toolkit⟩ overrides).outcome =
      (buildTable ⟨edited, vendor, toolkit⟩ overrides).outcome
  generate_eq : ∀ vendor toolkit overrides artifact,
    (generate ⟨source, vendor, toolkit⟩ overrides artifact).outcome =
      (generate ⟨edited, vendor, toolkit⟩ overrides artifact).outcome

/-- A header that is read as a table of the same content gives the same artifacts. -/
theorem SameArtifacts.of_sameContent {source edited : String} {t u : PrimaryTable}
    (ht : (PrimaryTable.ofText source).outcome = .ok t)
    (hu : (PrimaryTable.ofText edited).outcome = .ok u) (h : t.SameContent u) :
    SameArtifacts source edited := by
  obtain ⟨-, rfl⟩ := PrimaryTable.ofText_outcome_eq_ok_iff.1 ht
  obtain ⟨-, rfl⟩ := PrimaryTable.ofText_outcome_eq_ok_iff.1 hu
  have hbuild : ∀ vendor toolkit overrides,
      (buildTable ⟨source, vendor, toolkit⟩ overrides).outcome =
        (buildTable ⟨edited, vendor, toolkit⟩ overrides).outcome := by
    intro vendor toolkit overrides
    unfold buildTable
    rw [Logged.bind_ok (Logged.outcome_mapError_eq_ok_iff.2 ht),
      Logged.bind_ok (Logged.outcome_mapError_eq_ok_iff.2 hu)]
    simp only [Logged.outcome_bind]
    -- the other headers are read alike, and the resolver sees the same symbols
    apply bind_congr
    intro vendorTable
    apply bind_congr
    intro toolkitTable
    unfold Logged.mapError
    rw [h.resolve_eq (PrimaryTable.consistent_ofDefinitions _)
      (PrimaryTable.consistent_ofDefinitions _)]
  refine ⟨hbuild, fun vendor toolkit overrides artifact => ?_⟩
  unfold generate
  rw [Logged.outcome_bind, Logged.outcome_bind, hbuild]

/-- Lines of a primary header that are no accepted definitions can be deleted, any of them at once,
and lines without the marker can be inserted: the header is read as the same symbols in the same
order, with the same indices, and gives the same table and the same texts. If the accepted
definitions alone are kept, none is counted as alias, deprecated or duplicate. -/
theorem ofText_ignoresDropped {source : String} {t : PrimaryTable}
    (h : (PrimaryTable.ofText source).outcome = .ok t) :
    (∀ edited, Edited [] (bareLines source) (bareLines edited) →
      ∃ u, (PrimaryTable.ofText edited).outcome = .ok u ∧ t.SameContent u ∧
        SameArtifacts source edited) ∧
    (∃ kept, bareLines kept = acceptedLines [] (bareLines source)) ∧
    ∀ kept, bareLines kept = acceptedLines [] (bareLines source) →
      ∃ u, (PrimaryTable.ofText kept).outcome = .ok u ∧ t.SameContent u ∧
        SameArtifacts source kept ∧ u.tally = ⟨0, 0, 0⟩ := by
  obtain ⟨hlines, ht⟩ := PrimaryTable.ofText_outcome_eq_ok_iff_lines.1 h
  have hedited : ∀ edited, Edited [] (bareLines source) (bareLines edited) →
      ∃ u, (PrimaryTable.ofText edited).outcome = .ok u ∧ t.SameContent u ∧
        SameArtifacts source edited := by
    intro edited he
    have hu := PrimaryTable.ofText_outcome_eq_ok_iff_lines.2 ⟨he.verdict_ne_none hlines, rfl⟩
    have hsame : t.SameContent ((bareLines edited).foldl PrimaryTable.takeLine .empty) := by
      rw [ht]
      exact PrimaryTable.consistent_empty.sameContent_of_edited (.refl _) he
    exact ⟨_, hu, hsame, .of_sameContent h hu hsame⟩
  refine ⟨hedited, exists_bareLines_eq_acceptedLines source, fun kept hkept => ?_⟩
  -- to keep the accepted lines is one of the edits
  obtain ⟨u, hu, hsame, hartifacts⟩ := hedited kept (hkept ▸ edited_acceptedLines [] _)
  obtain ⟨-, rfl⟩ := PrimaryTable.ofText_outcome_eq_ok_iff_lines.1 hu
  refine ⟨_, hu, hsame, hartifacts, ?_⟩
  rw [hkept]
  exact PrimaryTable.consistent_empty.tally_foldl_acceptedLines _

/-- A header with an alias, whose name is defined again. -/
def spareHeader : String := "#define XK_a 0x61\n#define XK_b 0x61\n#define XK_b 0x62\n"

/-- The header without the alias and with a comment; the last line ends in a carriage return. -/
def editedHeader : String := "/* letters */\n#define XK_a 0x61\n#define XK_b 0x62\r"

/-- The accepted definitions of the header. -/
def keptHeader : String := "#define XK_a 0x61\n#define XK_b 0x62\n"

theorem edited_editedHeader :
    Edited [] (bareLines spareHeader) (bareLines editedHeader) := by
  have hspare : bareLines spareHeader = ["#define XK_a 0x61".toList, "#define XK_b 0x61".toList,
      "#define XK_b 0x62".toList] := by
    decide +kernel
  have hedited : bareLines editedHeader = ["/* letters */".toList, "#define XK_a 0x61".toList,
      "#define XK_b 0x62".toList] := by
    decide +kernel
  rw [hspare, hedited]
  exact .insert (by decide +kernel) (.keep (.delete (by decide +kernel) (.keep .nil)))

theorem ofText_ignoresDropped_spareHeader :
    ∃ t, (PrimaryTable.ofText spareHeader).outcome = .ok t ∧
      t.symbols.map (·.name) = ["a", "b"] ∧ t.tally = ⟨1, 0, 0⟩ ∧
      Edited [] (bareLines spareHeader) (bareLines editedHeader) ∧
      (∃ u, (PrimaryTable.ofText editedHeader).outcome = .ok u ∧ t.SameContent u ∧
        SameArtifacts spareHeader editedHeader) ∧
      ∃ u, (PrimaryTable.ofText keptHeader).outcome = .ok u ∧ t.SameContent u ∧
        SameArtifacts spareHeader keptHeader ∧ u.tally = ⟨0, 0, 0⟩ := by
  have hspare : (PrimaryTable.ofText spareHeader).outcome =
      .ok (.ofDefinitions (PrimaryTable.definitionLines spareHeader)) :=
    PrimaryTable.ofText_outcome_eq_ok_iff.2 ⟨by decide +kernel, rfl⟩
  obtain ⟨hedited, -, hkept⟩ := ofText_ignoresDropped hspare
  exact ⟨_, hspare, by decide +kernel, by decide +kernel, edited_editedHeader,
    hedited _ edited_editedHeader, hkept _ (by decide +kernel)⟩

end KeyDispatch
