import KeyDispatch.Proofs.DefinitionOrder
import KeyDispatch.Proofs.KeyIndependence

/-!
# Vendor symbols come last

A vendor symbol is asked for only where the accepted symbols give a key no keysym
(`outcome?_eq_or_supplied`). So a vendor header takes no entry away and changes none: it adds entries
for keys that would have had a diagnostic, with codes that it defines, and leaves all other
diagnostics and the keysyms of characters as they are (`resolve_extendsByVendor`).
-/

namespace KeyDispatch

/-! ## The codes that a vendor header defines -/

/-- A look-up in a map with entries added finds the last of them under its key. -/
theorem SortedMap.get?_insertMany {β : Type} (m : SortedMap String β) (entries : List (String × β))
    (key : String) :
    (m.insertMany entries).get? key =
      ((entries.reverse.find? fun e => e.1 == key).map (·.2)).or (m.get? key) := by
  induction entries generalizing m with
  | nil => rfl
  | cons e entries ih =>
    show ((m.insert e.1 e.2).insertMany entries).get? key = _
    rw [ih, get?_insert, List.reverse_cons, List.find?_append]
    by_cases hkey : key = e.1
    · simp [hkey]
    · simp [hkey, Ne.symm hkey]

namespace VendorTable

/-- The code that a text of the vendor header defines under a name: that of the last line that
defines the name. -/
def defined? (source : String) (name : String) : Option Keysym :=
  ((definitionLines source).reverse.find? fun d => d.1 == name).map (·.2)

theorem code?_eq_defined? {source : String} {vendor : VendorTable}
    (h : (ofText source).outcome = .ok vendor) (name : String) :
    vendor.code? name = defined? source name := by
  rw [eq_ofList_of_ofText h]
  exact (SortedMap.get?_insertMany _ _ _).trans Option.or_none

/-- A line of the vendor header defines a code of the vendor range. -/
theorem isVendor_of_foundOn {l : Numbered (List Char)} {symbol : String × Keysym}
    (h : foundOn ofLine l = some symbol) : symbol.2.isVendor = true := by
  obtain ⟨d, code, -, hvendor, rfl⟩ := ofLine_eq_ok_some_iff.1 (foundOn_eq_some_iff.1 h)
  exact hvendor

theorem isVendor_of_defined? {source name : String} {code : Keysym}
    (h : defined? source name = some code) : 0x10080001 ≤ code.code ∧ code.code ≤ 0x1008FFFF := by
  obtain ⟨symbol, hfind, rfl⟩ := Option.map_eq_some_iff.1 h
  have hmem := List.mem_reverse.1 (List.mem_of_find?_eq_some hfind)
  obtain ⟨l, -, hl⟩ := List.mem_filterMap.1 hmem
  have hrange := isVendor_of_foundOn hl
  rw [Keysym.isVendor, Bool.and_eq_true, decide_eq_true_eq, decide_eq_true_eq] at hrange
  exact hrange

end VendorTable

namespace Resolver

/-- The resolver without vendor symbols. -/
def withoutVendor (r : Resolver) : Resolver := { r with vendor := .empty }

/-- The vendor gives a key a keysym: under the key's name or, if it does not know that, under the
name to use instead. -/
inductive Supplies (vendor : VendorTable) (o : Overrides) (name : String) (code : Keysym) :
    Prop where
  | own (h : vendor.code? name = some code)
  | alternative {other : String} (hunknown : vendor.code? name = none)
      (hother : o.alternative? name = some other) (h : vendor.code? other = some code)

variable {r : Resolver}

/-! ## One key -/

/-- The keysym by another name comes from the accepted symbols, or there is none without the
vendor. -/
theorem substitute?_eq_or_supplied (r : Resolver) (name : String) :
    r.substitute? name = r.withoutVendor.substitute? name ∨
      ∃ code, r.withoutVendor.substitute? name = none ∧ r.substitute? name = some code ∧
        Supplies r.vendor r.overrides name code := by
  have hbare : r.withoutVendor.substitute? name =
      ((r.overrides.alternative? name).bind r.primary.code?).or
        ((r.overrides.alternative? name).bind VendorTable.empty.code?) := rfl
  have hempty : (r.overrides.alternative? name).bind VendorTable.empty.code? = none := by
    cases r.overrides.alternative? name with
    | none => rfl
    | some other => rfl
  rw [hbare, hempty, Option.or_none, substitute?]
  cases haccepted : (r.overrides.alternative? name).bind r.primary.code? with
  | some code => exact .inl rfl
  | none =>
    cases hown : r.vendor.code? name with
    | some code => exact .inr ⟨code, rfl, rfl, .own hown⟩
    | none =>
      cases hother : (r.overrides.alternative? name).bind r.vendor.code? with
      | none => exact .inl rfl
      | some code =>
        obtain ⟨other, halternative, hcode⟩ := Option.bind_eq_some_iff.1 hother
        exact .inr ⟨code, rfl, rfl, .alternative hown halternative hcode⟩

/-- The vendor makes no difference to a base resolution, or supplies one where there is none. -/
theorem resolveBase_eq_or_supplied (r : Resolver) (name : String) :
    r.resolveBase name = r.withoutVendor.resolveBase name ∨
      ∃ diagnostic code, r.withoutVendor.resolveBase name = .ok (.unresolved diagnostic) ∧
        r.resolveBase name = .ok (.resolved (.fixed code)) ∧
        Supplies r.vendor r.overrides name code := by
  have hignored : r.withoutVendor.overrides.isIgnored name = r.overrides.isIgnored name := rfl
  have hunique : r.withoutVendor.uniqueSpelling? name = r.uniqueSpelling? name := rfl
  have hexact : r.withoutVendor.primary.code? name = r.primary.code? name := rfl
  rw [resolveBase, resolveBase, hignored, hunique, hexact]
  split
  · exact .inl rfl
  · split
    · exact .inl rfl
    · split
      · exact .inl rfl
      · -- only here is the vendor asked
        rcases r.substitute?_eq_or_supplied name with hsame | ⟨code, hbare, hcode, hsupplies⟩
        · rw [hsame]
          exact .inl rfl
        · rw [hbare, hcode]
          exact .inr ⟨_, code, rfl, rfl, hsupplies⟩

/-- The keypad adds its keysym to a fixed one, or none. -/
theorem applyKeypad_fixed {name : String} {code : Keysym} {resolution : Resolution}
    (h : (r.applyKeypad name (.fixed code)).outcome = .ok resolution) :
    resolution = .fixed code ∨ ∃ onKeypad, resolution = .keypad code onKeypad := by
  cases r.keypadCase name (.fixed code) with
  | kept hnone heq =>
    rw [heq] at h
    exact .inl (Except.ok.inj h).symm
  | unknown hname hcode heq =>
    rw [heq] at h
    cases h
  | added hname hcode hfixed heq =>
    rw [heq] at h
    obtain rfl := Resolution.fixed.inj hfixed
    exact .inr ⟨_, (Except.ok.inj h).symm⟩
  | leftAside hname hcode hne heq => exact absurd rfl (hne code)

/-- What becomes of a key does not depend on the vendor, or the key is unresolved without the vendor
and has a keysym of the vendor with it. -/
theorem outcome?_eq_or_supplied {key : String × UInt32} {outcome : KeyOutcome}
    (h : r.outcome? key = some outcome) :
    r.withoutVendor.outcome? key = some outcome ∨
      ∃ diagnostic code resolution,
        r.withoutVendor.outcome? key = some (.unresolved diagnostic) ∧
        outcome = .resolved ⟨key.1, key.2, resolution⟩ ∧
        (resolution = .fixed code ∨ ∃ onKeypad, resolution = .keypad code onKeypad) ∧
        Supplies r.vendor r.overrides key.1 code := by
  have hkeypad : ∀ base, r.withoutVendor.applyKeypad key.1 base = r.applyKeypad key.1 base :=
    fun _ => rfl
  rcases r.resolveBase_eq_or_supplied key.1 with hsame | ⟨diagnostic, code, hbare, hcode, hsupplies⟩
  · left
    rw [← h, outcome?, outcome?, resolveKey, resolveKey, hsame]
    simp only [hkeypad]
  · right
    have hok := outcome?_eq_some_iff.1 h
    rw [resolveKey, hcode] at hok
    obtain ⟨resolution, hresolution, hok⟩ := Logged.outcome_bind_eq_ok_iff.1 hok
    obtain ⟨-, -, hok⟩ := Logged.outcome_bind_eq_ok_iff.1 hok
    refine ⟨diagnostic, code, resolution, ?_, (Except.ok.inj hok).symm,
      applyKeypad_fixed hresolution, hsupplies⟩
    rw [outcome?_eq_some_iff, resolveKey, hbare]

section Yields

variable {key : String × UInt32} {outcome : KeyOutcome} (h : r.outcome? key = some outcome)

include h

/-- An entry that a key has without the vendor it has with it. -/
theorem entryFor?_of_withoutVendor {e : Entry} (he : r.withoutVendor.entryFor? key = some e) :
    r.entryFor? key = some e := by
  rcases outcome?_eq_or_supplied h with hsame | ⟨diagnostic, _, _, hbare, -⟩
  · rw [entryFor?, hsame] at he
    rw [entryFor?, h, he]
  · rw [entryFor?, hbare] at he
    cases he

/-- An entry that a key has only with the vendor has a code that the vendor supplies. -/
theorem exists_supplies_of_entryFor? {e : Entry} (he : r.entryFor? key = some e)
    (hnone : r.withoutVendor.entryFor? key = none) :
    ∃ code, (e.resolution = .fixed code ∨ ∃ onKeypad, e.resolution = .keypad code onKeypad) ∧
      Supplies r.vendor r.overrides key.1 code := by
  rw [entryFor?, h] at he
  rcases outcome?_eq_or_supplied h with hsame | ⟨_, code, resolution, -, rfl, hcode, hsupplies⟩
  · rw [entryFor?, hsame, he] at hnone
    cases hnone
  · obtain rfl := Option.some.inj he
    exact ⟨code, hcode, hsupplies⟩

/-- A key with an entry has no diagnostic, and else the one that it has without the vendor. -/
theorem diagnostic?_eq_ite : r.diagnostic? key =
    if (r.entryFor? key).isSome then none else r.withoutVendor.diagnostic? key := by
  rw [entryFor?, diagnostic?, diagnostic?, h]
  rcases outcome?_eq_or_supplied h with hsame | ⟨_, _, _, -, rfl, -, -⟩
  · rw [hsame]
    cases outcome with
    | ignored => rfl
    | unresolved diagnostic => rfl
    | resolved entry => rfl
  · rfl

end Yields

/-! ## Two tables -/

section Tables

variable {toolkit : ToolkitTable} {table bare : DecisionTable}
  (h : (r.resolve toolkit).outcome = .ok table)
  (hbare : (r.withoutVendor.resolve toolkit).outcome = .ok bare)

include h

/-- An entry that a name has without the vendor it has with it. -/
theorem ownEntryFor?_of_withoutVendor {name : String} {e : Entry}
    (he : r.withoutVendor.ownEntryFor? toolkit name = some e) :
    r.ownEntryFor? toolkit name = some e := by
  obtain ⟨code, hcode, he⟩ := Option.bind_eq_some_iff.1 he
  obtain ⟨outcome, houtcome, -⟩ :=
    exists_settles_of_resolve h (ToolkitTable.code?_eq_some_iff.1 hcode)
  exact Option.bind_eq_some_iff.2 ⟨code, hcode, entryFor?_of_withoutVendor houtcome he⟩

/-- An entry that a name has only with the vendor has a code that the vendor supplies. -/
theorem exists_supplies_of_ownEntryFor? {name : String} {e : Entry}
    (he : r.ownEntryFor? toolkit name = some e)
    (hnone : r.withoutVendor.ownEntryFor? toolkit name = none) :
    ∃ code, (e.resolution = .fixed code ∨ ∃ onKeypad, e.resolution = .keypad code onKeypad) ∧
      Supplies r.vendor r.overrides name code := by
  obtain ⟨code, hcode, he⟩ := Option.bind_eq_some_iff.1 he
  obtain ⟨outcome, houtcome, -⟩ :=
    exists_settles_of_resolve h (ToolkitTable.code?_eq_some_iff.1 hcode)
  exact exists_supplies_of_entryFor? houtcome he (Option.bind_eq_none_iff.1 hnone code hcode)

/-- A key of the toolkit has entries in the table exactly if it has one by itself. -/
theorem isEmpty_entriesOf {key : String × UInt32} (hkey : key ∈ toolkit.toList) :
    (table.entriesOf key.1).isEmpty = !(r.entryFor? key).isSome := by
  have hentries := map_key_entriesOf h hkey
  rw [← List.isEmpty_map (f := Entry.key), hentries]
  cases (r.entryFor? key).isSome with
  | true => rfl
  | false => rfl

include hbare

/-- The keys left out are those that are left out without the vendor and have no entry with it. -/
theorem filter_leavesOut_withoutVendor :
    table.diagnostics.filter Diagnostic.leavesOut =
      (bare.diagnostics.filter Diagnostic.leavesOut).filter fun d =>
        (table.entriesOf d.key).isEmpty := by
  rw [filter_leavesOut_of_resolve h, filter_leavesOut_of_resolve hbare, List.filter_filterMap]
  apply List.filterMap_congr
  intro key hkey
  obtain ⟨outcome, houtcome, -⟩ := exists_settles_of_resolve h hkey
  rw [diagnostic?_eq_ite houtcome]
  cases hd : r.withoutVendor.diagnostic? key with
  | none => simp
  | some d =>
    rw [Option.filter_some, key_of_diagnostic? hd, isEmpty_entriesOf h hkey]
    cases (r.entryFor? key).isSome with
    | true => rfl
    | false => rfl

end Tables

end Resolver

/-- The table has everything that the table `bare` of the same keys has, and what the text of a
vendor header adds. -/
structure DecisionTable.ExtendsByVendor (table bare : DecisionTable) (source : String)
    (o : Overrides) : Prop where
  entry_kept : ∀ e ∈ bare.entries.toList, e.name ≠ "Control" → e.name ≠ "Meta" →
    e ∈ table.entries.toList
  /-- An entry that is added has a code of the vendor range, which the header defines under the
  key's name or, if it does not define that, under the name to use instead. -/
  entry_added : ∀ e ∈ table.entries.toList, e.name ≠ "Control" → e.name ≠ "Meta" →
    (∀ f ∈ bare.entries.toList, f.name ≠ e.name) →
    ∃ code, (e.resolution = .fixed code ∨ ∃ onKeypad, e.resolution = .keypad code onKeypad) ∧
      0x10080001 ≤ code.code ∧ code.code ≤ 0x1008FFFF ∧
      (VendorTable.defined? source e.name = some code ∨
        VendorTable.defined? source e.name = none ∧ ∃ other, o.alternative? e.name = some other ∧
          VendorTable.defined? source other = some code)
  textCases_eq : table.textCases = bare.textCases
  /-- The keys left out are those that `bare` leaves out, less those with an entry. -/
  leavesOut_eq : table.diagnostics.filter Diagnostic.leavesOut =
    (bare.diagnostics.filter Diagnostic.leavesOut).filter fun d => (table.entriesOf d.key).isEmpty

/-- What a vendor supplies, the text of its header defines. -/
theorem Resolver.Supplies.defined? {source : String} {vendor : VendorTable} {o : Overrides}
    {name : String} {code : Keysym} (h : Supplies vendor o name code)
    (hvendor : (VendorTable.ofText source).outcome = .ok vendor) :
    0x10080001 ≤ code.code ∧ code.code ≤ 0x1008FFFF ∧
      (VendorTable.defined? source name = some code ∨
        VendorTable.defined? source name = none ∧ ∃ other, o.alternative? name = some other ∧
          VendorTable.defined? source other = some code) := by
  have hdefined := VendorTable.code?_eq_defined? hvendor
  cases h with
  | own hcode =>
    rw [hdefined] at hcode
    obtain ⟨hfirst, hlast⟩ := VendorTable.isVendor_of_defined? hcode
    exact ⟨hfirst, hlast, .inl hcode⟩
  | alternative hunknown hother hcode =>
    rw [hdefined] at hunknown hcode
    obtain ⟨hfirst, hlast⟩ := VendorTable.isVendor_of_defined? hcode
    exact ⟨hfirst, hlast, .inr ⟨hunknown, _, hother, hcode⟩⟩

/-- A vendor header displaces nothing: wherever keys give a table with it and without it, the table
with it extends the other one. -/
theorem resolve_extendsByVendor {primary : PrimaryTable} {source : String} {vendor : VendorTable}
    (hvendor : (VendorTable.ofText source).outcome = .ok vendor) {o : Overrides} (hmade : o.Made)
    {toolkit : ToolkitTable} {table bare : DecisionTable}
    (h : ((Resolver.mk primary vendor o).resolve toolkit).outcome = .ok table)
    (hbare : ((Resolver.mk primary .empty o).resolve toolkit).outcome = .ok bare) :
    table.ExtendsByVendor bare source o := by
  have hpair : o.swap = .controlMeta := hmade.swap_eq
  have hfirst : "Control" = o.swap.first := by rw [hpair]; rfl
  have hsecond : "Meta" = o.swap.second := by rw [hpair]; rfl
  refine ⟨?_, ?_, ?_, Resolver.filter_leavesOut_withoutVendor h hbare⟩
  · intro e he hcontrol hmeta
    rw [hfirst] at hcontrol
    rw [hsecond] at hmeta
    have hown := (Resolver.mem_entries_iff_of_ne hbare hcontrol hmeta).1 he
    exact (Resolver.mem_entries_iff_of_ne h hcontrol hmeta).2
      (Resolver.ownEntryFor?_of_withoutVendor h hown)
  · intro e he hcontrol hmeta hnew
    rw [hfirst] at hcontrol
    rw [hsecond] at hmeta
    have hown := (Resolver.mem_entries_iff_of_ne h hcontrol hmeta).1 he
    have hnone := Option.map_eq_none_iff.1 (Resolver.own?_eq_none hbare hnew)
    obtain ⟨code, hcode, hsupplies⟩ := Resolver.exists_supplies_of_ownEntryFor? h hown hnone
    exact ⟨code, hcode, hsupplies.defined? hvendor⟩
  · obtain ⟨_, -, rfl⟩ := Resolver.exists_exchanged_of_resolve h
    obtain ⟨_, -, rfl⟩ := Resolver.exists_exchanged_of_resolve hbare
    rfl

/-- A vendor header that knows a letter which is accepted, and defines one name twice. -/
def mediaHeader : String :=
  "#define XF86XK_A 0x1008FF41\n#define XF86XK_Back 0x1008FF26\n"
    ++ "#define XF86XK_AudioStop 0x1008FF15\n#define XF86XK_Back 0x1008FF27\n"

/-- Overrides that take `Stop` for `AudioStop`, with `a` for `Back` on the keypad. -/
def mediaOverrides : Overrides :=
  (Overrides.empty.extend ⟨.ofList [("Stop", "AudioStop")], .ofList [("Back", "a")], []⟩).1

/-- Keys with an accepted symbol, with a vendor symbol and with neither. -/
def mediaKeys : ToolkitTable := .ofPairs [("Stop", 0x03), ("A", 0x41), ("Back", 0x61), ("Nil", 0x02)]

/-- The symbols of `mediaHeader`. -/
def mediaVendor : VendorTable :=
  ⟨.ofList [("A", ⟨0x1008FF41⟩), ("AudioStop", ⟨0x1008FF15⟩), ("Back", ⟨0x1008FF27⟩)]⟩

theorem ofText_mediaHeader : (VendorTable.ofText mediaHeader).outcome = .ok mediaVendor := by
  decide +kernel

/-- The table of `mediaKeys` without vendor symbols. -/
def bareDecisions : DecisionTable where
  textCases := .ofList [(0x61, ⟨0x61⟩)]
  entries := #[⟨"A", 0x41, .shift ⟨0x61⟩ ⟨0x63⟩⟩]
  diagnostics := [.noMatch "Back", .noMatch "Nil", .noMatch "Stop"]

/-- The table of `mediaKeys` with them: `A` stays, `Back` and `Stop` are added. -/
def mediaDecisions : DecisionTable where
  textCases := .ofList [(0x61, ⟨0x61⟩)]
  entries := #[
    ⟨"A", 0x41, .shift ⟨0x61⟩ ⟨0x63⟩⟩,
    ⟨"Back", 0x61, .keypad ⟨0x1008FF27⟩ ⟨0x61⟩⟩,
    ⟨"Stop", 0x03, .fixed ⟨0x1008FF15⟩⟩]
  diagnostics := [.noMatch "Nil"]

theorem resolve_mediaKeys :
    ((Resolver.mk PrimaryTable.mixedTable mediaVendor mediaOverrides).resolve mediaKeys).outcome =
        .ok mediaDecisions ∧
      ((Resolver.mk PrimaryTable.mixedTable .empty mediaOverrides).resolve mediaKeys).outcome =
        .ok bareDecisions := by
  decide +kernel

theorem resolve_extendsByVendor_mediaKeys :
    (VendorTable.ofText mediaHeader).outcome = .ok mediaVendor ∧ mediaOverrides.Made ∧
      ((Resolver.mk PrimaryTable.mixedTable mediaVendor mediaOverrides).resolve
        mediaKeys).outcome = .ok mediaDecisions ∧
      ((Resolver.mk PrimaryTable.mixedTable .empty mediaOverrides).resolve mediaKeys).outcome =
        .ok bareDecisions ∧
      mediaDecisions.ExtendsByVendor bareDecisions mediaHeader mediaOverrides :=
  have hmade : mediaOverrides.Made := .extend .empty _
  ⟨ofText_mediaHeader, hmade, resolve_mediaKeys.1, resolve_mediaKeys.2,
    resolve_extendsByVendor ofText_mediaHeader hmade resolve_mediaKeys.1 resolve_mediaKeys.2⟩

end KeyDispatch
