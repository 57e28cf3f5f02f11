import KeyDispatch.Proofs.NaiveResolver
import KeyDispatch.Proofs.TableEntries

/-!
# The order of definitions

Headers that say the same in another order give the same table or the same error, and so the same
text in either format (`buildTable_eq_of_reordered`). In the primary header the first definition
wins, so its definitions must not compete: no two of those that count share a code, a name or a
position. Then all of them are accepted (`PrimaryTable.symbols_ofDefinitions_of_apart`), and a
resolver that scans the accepted symbols finds the same in any order
(`NaiveResolver.Reordered.resolve_eq`).
-/

namespace KeyDispatch

/-! ## Lists and maps in another order -/

/-- A search that only one element can satisfy finds the same in any order. -/
theorem find?_eq_of_perm {α : Type} {p : α → Bool} {l l' : List α} (h : l.Perm l')
    (hone : ∀ a ∈ l, ∀ b ∈ l, p a = true → p b = true → a = b) : l.find? p = l'.find? p := by
  cases hl : l.find? p with
  | none =>
    symm
    rw [List.find?_eq_none] at hl ⊢
    intro a ha
    exact hl a (h.mem_iff.2 ha)
  | some a =>
    have ha : a ∈ l := List.mem_of_find?_eq_some hl
    have hsome : (l'.find? p).isSome = true :=
      List.find?_isSome.2 ⟨a, h.mem_iff.1 ha, List.find?_some hl⟩
    obtain ⟨b, hb⟩ := Option.isSome_iff_exists.1 hsome
    have hmem : b ∈ l := h.mem_iff.2 (List.mem_of_find?_eq_some hb)
    rw [hb, hone a ha b hmem (List.find?_some hl) (List.find?_some hb)]

/-- Entries of different keys make the same map in any order. -/
theorem SortedMap.ofList_eq_of_perm {β : Type} {l l' : List (String × β)} (h : l.Perm l')
    (hkeys : (l.map (·.1)).Nodup) : SortedMap.ofList l = SortedMap.ofList l' := by
  have hne : l.Pairwise fun a b => a.1 ≠ b.1 := List.pairwise_map.1 hkeys
  have hne' : l'.Pairwise fun a b => a.1 ≠ b.1 := h.pairwise hne Ne.symm
  apply SortedMap.ext_get?
  intro key
  ext1 v
  rw [SortedMap.get?_ofList_eq_some_iff hne, SortedMap.get?_ofList_eq_some_iff hne', h.mem_iff]

/-! ## Symbols that do not compete -/

namespace PrimarySymbol

/-- The symbols share neither code nor name nor position. -/
structure Apart (s t : PrimarySymbol) : Prop where
  code_ne : s.code ≠ t.code
  name_ne : s.name ≠ t.name
  not_declares : ∀ position, s.declares position = true → ¬ t.declares position = true

theorem Apart.symm {s t : PrimarySymbol} (h : s.Apart t) : t.Apart s where
  code_ne := h.code_ne.symm
  name_ne := h.name_ne.symm
  not_declares position ht hs := h.not_declares position hs ht

instance : Std.Symm Apart := ⟨fun _ _ => Apart.symm⟩

/-- Only the position that one symbol has needs to be asked for. -/
theorem apart_iff {s t : PrimarySymbol} :
    s.Apart t ↔ s.code ≠ t.code ∧ s.name ≠ t.name ∧
      (s.unicode.any fun u => t.declares u.position) = false := by
  have hposition : (∀ position, s.declares position = true → ¬ t.declares position = true) ↔
      (s.unicode.any fun u => t.declares u.position) = false := by
    cases hs : s.unicode with
    | none => simp [declares, hs]
    | some u => simp [declares, hs]
  constructor
  · intro h
    exact ⟨h.code_ne, h.name_ne, hposition.1 h.not_declares⟩
  · rintro ⟨hcode, hname, hnone⟩
    exact ⟨hcode, hname, hposition.2 hnone⟩

instance : DecidableRel Apart := fun _ _ => decidable_of_iff _ apart_iff.symm

/-- Among symbols that do not compete, one property that no two of them share names one symbol. -/
theorem eq_of_pairwise_apart {l : List PrimarySymbol} (h : l.Pairwise Apart)
    {p : PrimarySymbol → Bool} (hp : ∀ s t, s.Apart t → p s = true → ¬ p t = true) :
    ∀ a ∈ l, ∀ b ∈ l, p a = true → p b = true → a = b := by
  intro a ha b hb hpa hpb
  by_contra hne
  exact hp a b (h.forall ha hb hne) hpa hpb

/-- The definitions that count. -/
def live (ds : List PrimarySymbol) : List PrimarySymbol := ds.filter fun d => !d.deprecated

end PrimarySymbol

open PrimarySymbol (Apart live)

/-- Of definitions that do not compete with one another or with the symbols accepted before, all
that count are accepted, by induction on the definitions. -/
theorem accepted_judgeFrom_of_apart {earlier ds : List PrimarySymbol}
    (hearlier : ∀ e ∈ earlier, ∀ d ∈ live ds, e.Apart d) (h : (live ds).Pairwise Apart) :
    Judged.accepted (judgeFrom earlier ds) = live ds := by
  induction ds generalizing earlier with
  | nil => rfl
  | cons d ds ih =>
    cases hd : d.deprecated with
    | true =>
      -- a deprecated definition is passed over whatever has been accepted
      have hlive : live (d :: ds) = live ds := by
        simp [live, hd]
      have hjudge : judge earlier d ≠ .accepted := by
        rw [Ne, judge_eq_accepted_iff, hd]
        simp
      rw [hlive] at hearlier h ⊢
      rw [← ih hearlier h]
      simp [judgeFrom, Judged.accepted, hjudge]
    | false =>
      have hlive : live (d :: ds) = d :: live ds := by
        simp [live, hd]
      rw [hlive] at hearlier h ⊢
      obtain ⟨hhead, hrest⟩ := List.pairwise_cons.1 h
      have hjudge : judge earlier d = .accepted := by
        rw [judge_eq_accepted_iff]
        refine ⟨hd, fun e he => ?_⟩
        have hapart := hearlier e he d List.mem_cons_self
        exact ⟨hapart.code_ne, hapart.name_ne⟩
      have hnext : ∀ e ∈ earlier ++ [d], ∀ d' ∈ live ds, e.Apart d' := by
        intro e he d' hd'
        rcases List.mem_append.1 he with he | he
        · exact hearlier e he d' (List.mem_cons_of_mem d hd')
        · rw [List.mem_singleton.1 he]
          exact hhead d' hd'
      rw [← ih hnext hrest]
      simp [judgeFrom, Judged.accepted, hjudge]

/-- A table accepts all definitions that count if these do not compete. -/
theorem PrimaryTable.symbols_ofDefinitions_of_apart {ds : List PrimarySymbol}
    (h : (live ds).Pairwise Apart) : (ofDefinitions ds).symbols = live ds := by
  rw [symbols_ofDefinitions]
  exact accepted_judgeFrom_of_apart (by simp) h

/-! ## Scanning in another order -/

/-- The resolvers know the same symbols in another order, and these do not compete. -/
structure NaiveResolver.Reordered (r r' : NaiveResolver) : Prop where
  accepted : r.accepted.Perm r'.accepted
  apart : r.accepted.Pairwise Apart
  vendor : r.vendor = r'.vendor
  overrides : r.overrides = r'.overrides

namespace NaiveResolver.Reordered

variable {r r' : NaiveResolver}

theorem code?_eq (h : r.Reordered r') : r.code? = r'.code? := by
  funext name
  have hfind := find?_eq_of_perm h.accepted
    (PrimarySymbol.eq_of_pairwise_apart h.apart (p := fun s => s.name == name) ?_)
  · rw [code?, code?, hfind]
  · intro s t hst hs ht
    exact hst.name_ne ((beq_iff_eq.1 hs).trans (beq_iff_eq.1 ht).symm)

theorem spellings_perm (h : r.Reordered r') (key : String) :
    (r.spellings key).Perm (r'.spellings key) := h.accepted.filter _

/-- The rules ask only whether a name has no spelling, which one it has, or that it has several. -/
theorem base_eq (h : r.Reordered r') (key : String) : r.base key = r'.base key := by
  have hperm := h.spellings_perm key
  unfold base
  rw [h.code?_eq, h.vendor, h.overrides]
  rcases hs : r.spellings key with _ | ⟨a, _ | ⟨b, rest⟩⟩
  -- no spelling
  · rw [hs] at hperm
    rw [hperm.nil_eq.symm]
  -- the only spelling
  · rw [hs] at hperm
    rw [List.singleton_perm.1 hperm]
  -- several, of which only the number matters
  · rw [hs] at hperm
    rcases hs' : r'.spellings key with _ | ⟨a', _ | ⟨b', rest'⟩⟩
    · rw [hs'] at hperm
      exact absurd hperm.length_eq (by simp)
    · rw [hs'] at hperm
      exact absurd hperm.length_eq (by simp)
    · simp

theorem resolveKey_eq (h : r.Reordered r') : r.resolveKey = r'.resolveKey := by
  funext key
  have hkeypad : ∀ base, r.withKeypad key.1 base = r'.withKeypad key.1 base := by
    intro base
    unfold withKeypad
    rw [h.code?_eq, h.overrides]
  unfold resolveKey
  rw [h.base_eq, h.overrides]
  simp only [hkeypad]

/-- No position is declared twice, so it does not matter which declaration comes first. -/
theorem textCases_eq (h : r.Reordered r') : r.textCases = r'.textCases := by
  apply SortedMap.ext_get?
  intro position
  have hfind := find?_eq_of_perm h.accepted
    (PrimarySymbol.eq_of_pairwise_apart h.apart (p := (·.declares position)) ?_)
  · rw [textCases_get?, textCases_get?, hfind]
  · intro s t hst
    exact hst.not_declares position

/-- So the resolvers give the same table, or the same error. -/
theorem resolve_eq (h : r.Reordered r') (toolkit : ToolkitTable) :
    r.resolve toolkit = r'.resolve toolkit := by
  unfold resolve
  rw [h.resolveKey_eq, h.textCases_eq, h.overrides]

end NaiveResolver.Reordered

/-! ## Headers in another order -/

namespace VendorTable

/-- The symbols that a text defines, in the order of its lines. -/
def definitionLines (source : String) : List (String × Keysym) :=
  (numberedLines source).filterMap (foundOn ofLine)

/-- A text gives the table of the symbols on its lines. -/
theorem eq_ofList_of_ofText {source : String} {t : VendorTable}
    (h : (ofText source).outcome = .ok t) : t = ⟨.ofList (definitionLines source)⟩ := by
  obtain ⟨hfailure, rfl⟩ := ofText_outcome_eq_ok_iff_definitions.1 h
  rw [definitionLines, ← scan_found_of_failure_eq_none hfailure, definitions]

end VendorTable

namespace SourceTexts

/-- Each of the texts can be read. -/
structure Parses (sources : SourceTexts) : Prop where
  keysymdef : ∃ primary, (PrimaryTable.ofText sources.keysymdef).outcome = .ok primary
  vendor : ∃ vendor, (VendorTable.ofText sources.vendor).outcome = .ok vendor
  toolkit : ∃ toolkit, (ToolkitTable.ofText sources.toolkit).outcome = .ok toolkit

/-- Texts can be read exactly if no line of them is an error. -/
theorem parses_iff {sources : SourceTexts} :
    sources.Parses ↔ (PrimaryTable.definitions sources.keysymdef).failure = none ∧
      (VendorTable.definitions sources.vendor).failure = none ∧
      (ToolkitTable.definitions sources.toolkit).failure = none := by
  have hprimary : (∃ primary, (PrimaryTable.ofText sources.keysymdef).outcome = .ok primary) ↔
      (PrimaryTable.definitions sources.keysymdef).failure = none := by
    simp [PrimaryTable.ofText_outcome_eq_ok_iff]
  have hvendor : (∃ vendor, (VendorTable.ofText sources.vendor).outcome = .ok vendor) ↔
      (VendorTable.definitions sources.vendor).failure = none := by
    simp [VendorTable.ofText_outcome_eq_ok_iff_definitions]
  have htoolkit : (∃ toolkit, (ToolkitTable.ofText sources.toolkit).outcome = .ok toolkit) ↔
      (ToolkitTable.definitions sources.toolkit).failure = none := by
    simp [ToolkitTable.ofText_outcome_eq_ok_iff_definitions]
  rw [← hprimary, ← hvendor, ← htoolkit]
  constructor
  · intro h
    exact ⟨h.keysymdef, h.vendor, h.toolkit⟩
  · rintro ⟨hkeysymdef, hvendor, htoolkit⟩
    exact ⟨hkeysymdef, hvendor, htoolkit⟩

instance (sources : SourceTexts) : Decidable sources.Parses := decidable_of_iff _ parses_iff.symm

/-- The texts define the same in another order: no name of the toolkit or of the vendor twice, and
no code, name or position of the primary symbols twice among the definitions that count. -/
@[mk_iff]
structure Reordered (a b : SourceTexts) : Prop where
  keysymdef : (PrimaryTable.definitionLines a.keysymdef).Perm
    (PrimaryTable.definitionLines b.keysymdef)
  apart : (live (PrimaryTable.definitionLines a.keysymdef)).Pairwise Apart
  vendor : (VendorTable.definitionLines a.vendor).Perm (VendorTable.definitionLines b.vendor)
  vendor_nodup : ((VendorTable.definitionLines a.vendor).map (·.1)).Nodup
  toolkit : (ToolkitTable.definitionLines a.toolkit).Perm (ToolkitTable.definitionLines b.toolkit)
  toolkit_nodup : ((ToolkitTable.definitionLines a.toolkit).map (·.1)).Nodup

instance (a b : SourceTexts) : Decidable (a.Reordered b) :=
  decidable_of_iff _ (reordered_iff a b).symm

/-- The accepted symbols are the same in another order, so the resolvers are. -/
theorem Reordered.naive {a b : SourceTexts} (h : a.Reordered b) (vendor : VendorTable)
    (overrides : Overrides) :
    NaiveResolver.Reordered
      (Resolver.naive
        ⟨.ofDefinitions (PrimaryTable.definitionLines a.keysymdef), vendor, overrides⟩)
      (Resolver.naive
        ⟨.ofDefinitions (PrimaryTable.definitionLines b.keysymdef), vendor, overrides⟩) := by
  have hlive : (live (PrimaryTable.definitionLines a.keysymdef)).Perm
      (live (PrimaryTable.definitionLines b.keysymdef)) := h.keysymdef.filter _
  have hapart := hlive.pairwise h.apart Apart.symm
  refine ⟨?_, ?_, rfl, rfl⟩
  · show (PrimaryTable.ofDefinitions _).symbols.Perm (PrimaryTable.ofDefinitions _).symbols
    rw [PrimaryTable.symbols_ofDefinitions_of_apart h.apart,
      PrimaryTable.symbols_ofDefinitions_of_apart hapart]
    exact hlive
  · show (PrimaryTable.ofDefinitions _).symbols.Pairwise Apart
    rw [PrimaryTable.symbols_ofDefinitions_of_apart h.apart]
    exact h.apart

end SourceTexts

/-- Texts that can be read give what the resolver of their tables gives. -/
theorem buildTable_outcome_of_ofText {sources : SourceTexts} {primary : PrimaryTable}
    {vendor : VendorTable} {toolkit : ToolkitTable}
    (hprimary : (PrimaryTable.ofText sources.keysymdef).outcome = .ok primary)
    (hvendor : (VendorTable.ofText sources.vendor).outcome = .ok vendor)
    (htoolkit : (ToolkitTable.ofText sources.toolkit).outcome = .ok toolkit)
    (overrides : Overrides) :
    (buildTable sources overrides).outcome =
      ((Resolver.resolve ⟨primary, vendor, overrides⟩ toolkit).mapError .resolve).outcome := by
  have hprimary' := Logged.outcome_mapError_eq_ok_iff (f := GenerateError.header) |>.2 hprimary
  have hvendor' := Logged.outcome_mapError_eq_ok_iff (f := GenerateError.header) |>.2 hvendor
  have htoolkit' := Logged.outcome_mapError_eq_ok_iff (f := GenerateError.header) |>.2 htoolkit
  unfold buildTable
  rw [Logged.bind_ok hprimary', Logged.bind_ok hvendor', Logged.bind_ok htoolkit']

/-- Headers that define the same in another order give the same table, or the same error, and the
same text in every format and under every name. -/
theorem buildTable_eq_of_reordered {a b : SourceTexts} (ha : a.Parses) (hb : b.Parses)
    (h : a.Reordered b) (overrides : Overrides) :
    (buildTable a overrides).outcome = (buildTable b overrides).outcome ∧
      ∀ artifact, (generate a overrides artifact).outcome =
        (generate b overrides artifact).outcome := by
  obtain ⟨⟨primary, hprimary⟩, ⟨vendor, hvendor⟩, ⟨toolkit, htoolkit⟩⟩ := ha
  obtain ⟨⟨primary', hprimary'⟩, ⟨vendor', hvendor'⟩, ⟨toolkit', htoolkit'⟩⟩ := hb
  -- the tables of vendor and toolkit are the same
  have hvendors : vendor = vendor' := by
    rw [VendorTable.eq_ofList_of_ofText hvendor, VendorTable.eq_ofList_of_ofText hvendor',
      SortedMap.ofList_eq_of_perm h.vendor h.vendor_nodup]
  have htoolkits : toolkit = toolkit' := by
    rw [ToolkitTable.eq_ofPairs_of_ofText htoolkit, ToolkitTable.eq_ofPairs_of_ofText htoolkit',
      ToolkitTable.ofPairs, ToolkitTable.ofPairs,
      SortedMap.ofList_eq_of_perm h.toolkit h.toolkit_nodup]
  obtain ⟨-, rfl⟩ := PrimaryTable.ofText_outcome_eq_ok_iff.1 hprimary
  obtain ⟨-, rfl⟩ := PrimaryTable.ofText_outcome_eq_ok_iff.1 hprimary'
  have hbuild : (buildTable a overrides).outcome = (buildTable b overrides).outcome := by
    rw [buildTable_outcome_of_ofText hprimary hvendor htoolkit,
      buildTable_outcome_of_ofText hprimary' hvendor' htoolkit', ← hvendors, ← htoolkits]
    have hresolve := (h.naive vendor overrides).resolve_eq toolkit
    rw [← Resolver.resolve_outcome_eq_naive (PrimaryTable.consistent_ofDefinitions _),
      ← Resolver.resolve_outcome_eq_naive (PrimaryTable.consistent_ofDefinitions _)] at hresolve
    unfold Logged.mapError
    rw [hresolve]
  refine ⟨hbuild, fun artifact => ?_⟩
  unfold generate
  rw [Logged.outcome_bind, Logged.outcome_bind, hbuild]

/-- Headers with both cases of a letter, a deprecated definition and a position. -/
def orderedHeaders : SourceTexts where
  keysymdef := "#define XK_a 0x61 /*U+0061 A*/\n#define XK_A 0x41\n#define XK_b 0x41 /*(b)*/\n"
  vendor := "#define XF86XK_Back 0x1008FF26\n"
  toolkit := "Key_A = 0x41,\nKey_Back = 0x61,\nKey_B = 0x42,\n"

/-- The headers from the last line to the first. -/
def reversedHeaders : SourceTexts where
  keysymdef := "#define XK_b 0x41 /*(b)*/\n#define XK_A 0x41\n#define XK_a 0x61 /*U+0061 A*/\n"
  vendor := "#define XF86XK_Back 0x1008FF26\n"
  toolkit := "Key_B = 0x42,\nKey_Back = 0x61,\nKey_A = 0x41,\n"

/-- The table of either. -/
def orderedTable : DecisionTable where
  textCases := .ofList [(0x61, ⟨0x61⟩)]
  entries := #[⟨"A", 0x41, .shift ⟨0x61⟩ ⟨0x41⟩⟩, ⟨"Back", 0x61, .fixed ⟨0x1008FF26⟩⟩]
  diagnostics := [.noMatch "B"]

/-- The letters meet the other way round, and the deprecated definition is an alias in the first
order only. -/
theorem buildTable_eq_of_reordered_reversedHeaders :
    orderedHeaders.Parses ∧ reversedHeaders.Parses ∧ orderedHeaders.Reordered reversedHeaders ∧
      (buildTable reversedHeaders Overrides.empty).outcome = .ok orderedTable ∧
      (generate orderedHeaders Overrides.empty (.cppHeader .standard)).outcome =
        (generate reversedHeaders Overrides.empty (.cppHeader .standard)).outcome := by
  have hsame : orderedHeaders.Parses ∧ reversedHeaders.Parses ∧
      orderedHeaders.Reordered reversedHeaders := by
    decide +kernel
  have hordered : (buildTable orderedHeaders Overrides.empty).outcome = .ok orderedTable := by
    decide +kernel
  obtain ⟨hbuild, hgenerate⟩ :=
    buildTable_eq_of_reordered hsame.1 hsame.2.1 hsame.2.2 Overrides.empty
  exact ⟨hsame.1, hsame.2.1, hsame.2.2, hbuild.symm.trans hordered, hgenerate _⟩

end KeyDispatch
