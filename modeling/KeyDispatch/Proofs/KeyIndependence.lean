import KeyDispatch.Proofs.PlatformExchange

/-!
# Keys are independent of one another

What becomes of a key depends on the tables of symbols and on what toolkit and overrides say of this
key, and on nothing that they say of other keys (`resolveKey_eq_of_agreeOn`). So two runs over the
same symbols that agree on a key make the same of it, whatever else they differ in; the two keys
that trade places depend on one another and on no third key (`resolve_sameAbout`).
-/

namespace KeyDispatch

/-- The overrides say the same of a key. -/
structure Overrides.AgreeOn (o o' : Overrides) (name : String) : Prop where
  alternative?_eq : o.alternative? name = o'.alternative? name
  keypad?_eq : o.keypad? name = o'.keypad? name
  isIgnored_eq : o.isIgnored name = o'.isIgnored name

/-- Two pairs of a toolkit table and overrides say the same of a key: whether it is listed and with
which code, which name to use instead, which keypad keysym it has, and whether to leave it out. -/
structure KeysAgreeOn (toolkit toolkit' : ToolkitTable) (o o' : Overrides) (name : String) :
    Prop where
  code?_eq : toolkit.code? name = toolkit'.code? name
  overrides : o.AgreeOn o' name

/-- The tables say the same of a key: they have the same entry for it or none, and the same
diagnostics about it or none. -/
structure DecisionTable.SameAbout (t t' : DecisionTable) (name : String) : Prop where
  entriesOf_eq : t.entriesOf name = t'.entriesOf name
  diagnosticsOf_eq : t.diagnosticsOf name = t'.diagnosticsOf name
  find?_eq : t.find? name = t'.find? name

namespace Resolver

/-- The diagnostic that a name has by itself. -/
def ownDiagnostic? (r : Resolver) (toolkit : ToolkitTable) (name : String) : Option Diagnostic :=
  (toolkit.code? name).bind fun code => r.diagnostic? (name, code)

/-! ## One key -/

section OneKey

variable {primary : PrimaryTable} {vendor : VendorTable} {o o' : Overrides} {name : String}

/-- The rules ask the overrides for nothing but the key's own name. -/
theorem resolveBase_eq_of_agreeOn (h : o.AgreeOn o' name) :
    (Resolver.mk primary vendor o).resolveBase name =
      (Resolver.mk primary vendor o').resolveBase name := by
  have hsubstitute : (Resolver.mk primary vendor o).substitute? name =
      (Resolver.mk primary vendor o').substitute? name := by
    rw [substitute?, substitute?, h.alternative?_eq]
  rw [resolveBase, resolveBase, h.isIgnored_eq, hsubstitute]
  rfl

theorem applyKeypad_eq_of_agreeOn (h : o.AgreeOn o' name) (base : Resolution) :
    (Resolver.mk primary vendor o).applyKeypad name base =
      (Resolver.mk primary vendor o').applyKeypad name base := by
  rw [applyKeypad, applyKeypad, h.keypad?_eq]

/-- What becomes of a key, and what is reported of it, depends on what the overrides say of it. -/
theorem resolveKey_eq_of_agreeOn (key : String × UInt32) (h : o.AgreeOn o' key.1) :
    (Resolver.mk primary vendor o).resolveKey key =
      (Resolver.mk primary vendor o').resolveKey key := by
  rw [resolveKey, resolveKey, resolveBase_eq_of_agreeOn h]
  split
  · rfl
  · rfl
  · rfl
  · rw [applyKeypad_eq_of_agreeOn h]

variable {toolkit toolkit' : ToolkitTable}

/-- So does what the key of a name yields. -/
theorem bind_outcome?_eq_of_agreeOn {α : Type} (h : KeysAgreeOn toolkit toolkit' o o' name)
    (g : KeyOutcome → Option α) :
    ((toolkit.code? name).bind fun code =>
        ((Resolver.mk primary vendor o).outcome? (name, code)).bind g) =
      (toolkit'.code? name).bind fun code =>
        ((Resolver.mk primary vendor o').outcome? (name, code)).bind g := by
  rw [h.code?_eq]
  congr 1
  funext code
  rw [outcome?, outcome?, resolveKey_eq_of_agreeOn (name, code) h.overrides]

theorem ownEntryFor?_eq_of_agreeOn (h : KeysAgreeOn toolkit toolkit' o o' name) :
    (Resolver.mk primary vendor o).ownEntryFor? toolkit name =
      (Resolver.mk primary vendor o').ownEntryFor? toolkit' name :=
  bind_outcome?_eq_of_agreeOn h KeyOutcome.entryOf?

theorem ownDiagnostic?_eq_of_agreeOn (h : KeysAgreeOn toolkit toolkit' o o' name) :
    (Resolver.mk primary vendor o).ownDiagnostic? toolkit name =
      (Resolver.mk primary vendor o').ownDiagnostic? toolkit' name :=
  bind_outcome?_eq_of_agreeOn h KeyOutcome.diagnosticOf?

theorem own?_eq_of_agreeOn (h : KeysAgreeOn toolkit toolkit' o o' name) :
    (Resolver.mk primary vendor o).own? toolkit name =
      (Resolver.mk primary vendor o').own? toolkit' name := by
  rw [own?, own?, ownEntryFor?_eq_of_agreeOn h]

end OneKey

/-! ## One key of a table -/

section OfTable

variable {r : Resolver} {toolkit : ToolkitTable} {table : DecisionTable}

/-- The entries under a name are the one of its key, exchanged if both members of the pair have
one. -/
theorem entriesOf_of_resolve (h : (r.resolve toolkit).outcome = .ok table) (name : String) :
    table.entriesOf name =
      ((r.ownEntryFor? toolkit name).map (exchangeIfBoth r.overrides.swap
        (r.own? toolkit r.overrides.swap.first)
        (r.own? toolkit r.overrides.swap.second))).toList := by
  have hne := (entries_ascending h).imp fun hlt => hlt.ne
  rw [DecisionTable.entriesOf, filter_name_eq_toList_find? hne, find?_entries_of_resolve h]

/-- The entries under a name that does not belong to the pair are the one of its key. -/
theorem entriesOf_of_ne (h : (r.resolve toolkit).outcome = .ok table) {name : String}
    (hfirst : name ≠ r.overrides.swap.first) (hsecond : name ≠ r.overrides.swap.second) :
    table.entriesOf name = (r.ownEntryFor? toolkit name).toList := by
  rw [entriesOf_of_resolve h]
  cases hown : r.ownEntryFor? toolkit name with
  | none => rfl
  | some e =>
    obtain ⟨rfl, -⟩ := of_ownEntryFor?_eq_some hown
    rw [Option.map_some, exchangeIfBoth_of_ne _ _ hfirst hsecond]

/-- An entry outside the pair is in the table exactly if it is the one of its name. -/
theorem mem_entries_iff_of_ne (h : (r.resolve toolkit).outcome = .ok table) {e : Entry}
    (hfirst : e.name ≠ r.overrides.swap.first) (hsecond : e.name ≠ r.overrides.swap.second) :
    e ∈ table.entries.toList ↔ r.ownEntryFor? toolkit e.name = some e := by
  have hentries := entriesOf_of_ne h hfirst hsecond
  calc e ∈ table.entries.toList ↔ e ∈ table.entriesOf e.name := by simp [DecisionTable.entriesOf]
    _ ↔ r.ownEntryFor? toolkit e.name = some e := by rw [hentries, Option.mem_toList]

/-- The diagnostics about a name are the one of its key and those of the exchange. -/
theorem diagnosticsOf_of_resolve (h : (r.resolve toolkit).outcome = .ok table) (name : String) :
    table.diagnosticsOf name = (r.ownDiagnostic? toolkit name).toList ++
      table.unswapped.filter fun d => d.key == name := by
  have hne := (toolkit.keys.map_filterMap_toList_pairwise
    fun _ _ hd => key_of_diagnostic? (r := r) hd).imp fun hlt => hlt.ne
  have hkeys : ((toolkit.toList.filterMap r.diagnostic?).filter fun d => d.key == name) =
      (r.ownDiagnostic? toolkit name).toList := by
    rw [ToolkitTable.toList, filter_name_eq_toList_find? hne,
      toolkit.keys.find?_filterMap_toList fun _ _ hd => key_of_diagnostic? hd]
    rfl
  rw [DecisionTable.diagnosticsOf, diagnostics_of_resolve h, List.filter_append, hkeys]

/-- The exchange says something of members of the pair only. -/
theorem filter_unswapped_of_ne (h : (r.resolve toolkit).outcome = .ok table) {name : String}
    (hfirst : name ≠ r.overrides.swap.first) (hsecond : name ≠ r.overrides.swap.second) :
    (table.unswapped.filter fun d => d.key == name) = [] := by
  rw [unswapped_of_resolve h]
  unfold unswappedOf
  split
  · simp [Diagnostic.key, hfirst.symm]
  · simp [Diagnostic.key, hsecond.symm]
  · rfl

/-- The search for a name finds the entries under it. -/
theorem find?_eq_head?_entriesOf (h : (r.resolve toolkit).outcome = .ok table) (name : String) :
    table.find? name = (table.entriesOf name).head? := by
  have hne := (entries_ascending h).imp fun hlt => hlt.ne
  ext1 e
  rw [DecisionTable.find?_eq_some_iff (entries_ascending h), DecisionTable.entriesOf,
    filter_name_eq_toList_find? hne, Option.head?_toList, find?_name_eq_some_iff hne]

end OfTable

/-! ## Two runs -/

section TwoRuns

variable {primary : PrimaryTable} {vendor : VendorTable} {o o' : Overrides}
  {toolkit toolkit' : ToolkitTable} {table table' : DecisionTable}
  (h : ((Resolver.mk primary vendor o).resolve toolkit).outcome = .ok table)
  (h' : ((Resolver.mk primary vendor o').resolve toolkit').outcome = .ok table')

include h h'

/-- Entries and diagnostics decide what a table says of a key. -/
theorem sameAbout_of_entriesOf {name : String}
    (hentries : table.entriesOf name = table'.entriesOf name)
    (hdiagnostics : table.diagnosticsOf name = table'.diagnosticsOf name) :
    table.SameAbout table' name := by
  refine ⟨hentries, hdiagnostics, ?_⟩
  rw [find?_eq_head?_entriesOf h, find?_eq_head?_entriesOf h', hentries]

/-- A key outside the pair is resolved in the same way by runs that agree on it. -/
theorem sameAbout_of_ne (hswap : o.swap = o'.swap) {name : String} (hfirst : name ≠ o.swap.first)
    (hsecond : name ≠ o.swap.second) (hagree : KeysAgreeOn toolkit toolkit' o o' name) :
    table.SameAbout table' name := by
  have hfirst' : name ≠ o'.swap.first := hswap ▸ hfirst
  have hsecond' : name ≠ o'.swap.second := hswap ▸ hsecond
  apply sameAbout_of_entriesOf h h'
  · rw [entriesOf_of_ne h hfirst hsecond, entriesOf_of_ne h' hfirst' hsecond',
      ownEntryFor?_eq_of_agreeOn hagree]
  · rw [diagnosticsOf_of_resolve h, diagnosticsOf_of_resolve h',
      filter_unswapped_of_ne h hfirst hsecond, filter_unswapped_of_ne h' hfirst' hsecond',
      ownDiagnostic?_eq_of_agreeOn hagree]

variable (hswap : o.swap = o'.swap) (hfirst : KeysAgreeOn toolkit toolkit' o o' o.swap.first)
  (hsecond : KeysAgreeOn toolkit toolkit' o o' o.swap.second)

include hswap hfirst hsecond

/-- Runs that agree on both members of the pair say the same of the exchange. -/
theorem unswapped_eq_of_agreeOn : table.unswapped = table'.unswapped := by
  rw [unswapped_of_resolve h, unswapped_of_resolve h']
  show unswappedOf o.swap _ _ = unswappedOf o'.swap _ _
  rw [← hswap, own?_eq_of_agreeOn hfirst, own?_eq_of_agreeOn hsecond]

/-- They say the same of any key that they agree on, a member of the pair or not. -/
theorem sameAbout_of_agreeOn {name : String} (hagree : KeysAgreeOn toolkit toolkit' o o' name) :
    table.SameAbout table' name := by
  apply sameAbout_of_entriesOf h h'
  · rw [entriesOf_of_resolve h, entriesOf_of_resolve h', ownEntryFor?_eq_of_agreeOn hagree]
    show (Option.map (exchangeIfBoth o.swap _ _) _).toList =
      (Option.map (exchangeIfBoth o'.swap _ _) _).toList
    rw [← hswap, own?_eq_of_agreeOn hfirst, own?_eq_of_agreeOn hsecond]
  · rw [diagnosticsOf_of_resolve h, diagnosticsOf_of_resolve h',
      unswapped_eq_of_agreeOn h h' hswap hfirst hsecond, ownDiagnostic?_eq_of_agreeOn hagree]

end TwoRuns

end Resolver

/-- Two tables over the same symbols, made with any toolkit tables and any overrides that can be
made, say the same of every key that the two runs agree on. Control and Meta alone depend on one
another: for these, and for what is said of their exchange, the runs must agree on both. -/
theorem resolve_sameAbout {primary : PrimaryTable} {vendor : VendorTable} {o o' : Overrides}
    (hmade : o.Made) (hmade' : o'.Made) {toolkit toolkit' : ToolkitTable}
    {table table' : DecisionTable}
    (h : ((Resolver.mk primary vendor o).resolve toolkit).outcome = .ok table)
    (h' : ((Resolver.mk primary vendor o').resolve toolkit').outcome = .ok table') :
    (∀ name, name ≠ "Control" → name ≠ "Meta" → KeysAgreeOn toolkit toolkit' o o' name →
      table.SameAbout table' name) ∧
    (KeysAgreeOn toolkit toolkit' o o' "Control" → KeysAgreeOn toolkit toolkit' o o' "Meta" →
      table.SameAbout table' "Control" ∧ table.SameAbout table' "Meta" ∧
        table.unswapped = table'.unswapped) := by
  have hpair : o.swap = .controlMeta := hmade.swap_eq
  have hswap : o.swap = o'.swap := hpair.trans hmade'.swap_eq.symm
  constructor
  · intro name hfirst hsecond hagree
    rw [show "Control" = o.swap.first by rw [hpair]; rfl] at hfirst
    rw [show "Meta" = o.swap.second by rw [hpair]; rfl] at hsecond
    exact Resolver.sameAbout_of_ne h h' hswap hfirst hsecond hagree
  · intro hcontrol hmeta
    have hfirst : KeysAgreeOn toolkit toolkit' o o' o.swap.first := by rw [hpair]; exact hcontrol
    have hsecond : KeysAgreeOn toolkit toolkit' o o' o.swap.second := by rw [hpair]; exact hmeta
    exact ⟨Resolver.sameAbout_of_agreeOn h h' hswap hfirst hsecond hcontrol,
      Resolver.sameAbout_of_agreeOn h h' hswap hfirst hsecond hmeta,
      Resolver.unswapped_eq_of_agreeOn h h' hswap hfirst hsecond⟩

/-- The keys of `pairKeys` and others. -/
def widerKeys : ToolkitTable :=
  .ofPairs [("Zoom", 0x01), ("B", 0x42), ("A", 0x41), ("K", 0x4b), ("Meta", 0x01000022),
    ("Control", 0x01000021)]

/-- The entries of `pairOverrides` and others. -/
def widerOverrides : Overrides := (pairOverrides.extend ⟨.ofList [("B", "a")], .empty, ["Zoom"]⟩).1

/-- The table of `widerKeys`: the entries and the diagnostic of `pairDecisions`, and more. -/
def widerDecisions : DecisionTable where
  textCases := .ofList [(0x61, ⟨0x61⟩)]
  entries := #[
    ⟨"A", 0x41, .shift ⟨0x61⟩ ⟨0x63⟩⟩,
    ⟨"B", 0x42, .fixed ⟨0x61⟩⟩,
    ⟨"Control", 0x01000021, .swapped (.keypad ⟨0x61⟩ ⟨0x63⟩) (.fixed ⟨0x63⟩) .macOS⟩,
    ⟨"Meta", 0x01000022, .swapped (.fixed ⟨0x63⟩) (.keypad ⟨0x61⟩ ⟨0x63⟩) .macOS⟩]
  diagnostics := [.noMatch "K"]

theorem resolve_widerKeys :
    ((Resolver.mk PrimaryTable.mixedTable .empty widerOverrides).resolve widerKeys).outcome =
      .ok widerDecisions := by
  decide +kernel

/-- The runs agree on `K`, `Control` and `Meta`, and disagree on the other keys. -/
theorem keysAgreeOn_widerKeys : ∀ name ∈ ["K", "Control", "Meta"],
    KeysAgreeOn pairKeys widerKeys pairOverrides widerOverrides name := by
  have hall : ∀ name ∈ ["K", "Control", "Meta"],
      pairKeys.code? name = widerKeys.code? name ∧
        pairOverrides.alternative? name = widerOverrides.alternative? name ∧
        pairOverrides.keypad? name = widerOverrides.keypad? name ∧
        pairOverrides.isIgnored name = widerOverrides.isIgnored name := by
    decide +kernel
  intro name hname
  obtain ⟨hcode, halternative, hkeypad, hignored⟩ := hall name hname
  exact ⟨hcode, halternative, hkeypad, hignored⟩

theorem resolve_sameAbout_widerKeys :
    pairOverrides.Made ∧ widerOverrides.Made ∧
      ((Resolver.mk PrimaryTable.mixedTable .empty pairOverrides).resolve pairKeys).outcome =
        .ok pairDecisions ∧
      ((Resolver.mk PrimaryTable.mixedTable .empty widerOverrides).resolve widerKeys).outcome =
        .ok widerDecisions ∧
      (∀ name ∈ ["K", "Control", "Meta"],
        KeysAgreeOn pairKeys widerKeys pairOverrides widerOverrides name) ∧
      pairDecisions.SameAbout widerDecisions "K" ∧
      pairDecisions.SameAbout widerDecisions "Control" ∧
      pairDecisions.SameAbout widerDecisions "Meta" ∧
      pairDecisions.unswapped = widerDecisions.unswapped := by
  have hmade : pairOverrides.Made := .extend .empty _
  have hmade' : widerOverrides.Made := .extend hmade _
  have hagree := keysAgreeOn_widerKeys
  obtain ⟨hothers, hpair⟩ := resolve_sameAbout hmade hmade' resolve_pairKeys resolve_widerKeys
  refine ⟨hmade, hmade', resolve_pairKeys, resolve_widerKeys, hagree, ?_, ?_⟩
  · exact hothers "K" (by decide) (by decide) (hagree "K" (by simp))
  · exact hpair (hagree "Control" (by simp)) (hagree "Meta" (by simp))

end KeyDispatch
