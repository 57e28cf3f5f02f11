import KeyDispatch.Proofs.SymbolLine
import KeyDispatch.Proofs.TextTranslation
import KeyDispatch.Proofs.VendorAddition
import Mathlib

/-!
# Where keysyms come from

Every keysym in a table is the code of an accepted symbol or of a vendor symbol. A pair by Shift is
a real one: its members are the codes, which differ, of the two symbols that spell the key in lower
and in upper case, since a name that is the same in both cases has no second spelling
(`Text.eq_of_caseless`). The keypad adds the code of the symbol that the overrides name for the
key, and the exchange only moves resolutions (`resolve_hasSources`).
-/

namespace KeyDispatch

open Text (lowercase uppercase isWord)

/-! ## Words in lower and in upper case -/

namespace Text

/-- A character with one case is in lower case. -/
theorem toLower_eq_self {c : Char} (hcase : c.toLower = c.toUpper) : c.toLower = c := by
  by_cases hupper : c.isUpper
  · rw [hcase, Char.toUpper_eq_of_not_isLower (Char.not_isLower_of_isUpper hupper)]
  · exact Char.toLower_eq_of_not_isUpper hupper

section Names

variable {a name : String}

theorem lowercase_of_isWord (h : ∀ c ∈ name.toList, isWord c) :
    lowercase name = String.ofList (name.toList.map Char.toLower) := by
  rw [lowercase, lowerFrom_ascii [] fun c hc => toNat_lt_of_isWord (h c hc)]

theorem uppercase_lowercase (h : ∀ c ∈ name.toList, isWord c) :
    uppercase (lowercase name) = uppercase name := by
  rw [lowercase_of_isWord h, uppercase, uppercase, String.toList_ofList, List.map_map]
  congr 1
  exact List.map_congr_left fun c _ => Char.toUpper_toLower_eq_toUpper c

theorem lowercase_eq_self (h : ∀ c ∈ name.toList, isWord c)
    (hcase : lowercase name = uppercase name) : lowercase name = name := by
  rw [lowercase_of_isWord h, uppercase] at hcase
  have hchars : ∀ c ∈ name.toList, c.toLower = c.toUpper :=
    List.map_inj_left.1 (String.ofList_injective hcase)
  have hmap : name.toList.map Char.toLower = name.toList.map id := by
    apply List.map_congr_left
    intro c hc
    exact toLower_eq_self (hchars c hc)
  rw [lowercase_of_isWord h, hmap, List.map_id, String.ofList_toList]

/-- A name that is the same in both cases is the only one with its lowercase form. -/
theorem eq_of_caseless (ha : ∀ c ∈ a.toList, isWord c) (hname : ∀ c ∈ name.toList, isWord c)
    (hfold : lowercase a = lowercase name) (hcase : lowercase name = uppercase name) :
    a = name := by
  have hupper : lowercase a = uppercase a := by
    rw [← uppercase_lowercase ha, hfold, uppercase_lowercase hname, hcase]
  rw [← lowercase_eq_self ha hupper, hfold, lowercase_eq_self hname hcase]

end Names

end Text

/-! ## The keysyms of a resolution -/

namespace Resolution

/-- All keysyms that stand in a resolution. -/
def keysyms : Resolution → List Keysym
  | .fixed keysym => [keysym]
  | .shift lower upper => [lower, upper]
  | .keypad plain onKeypad => [plain, onKeypad]
  | .swapped normal exchanged _ => normal.keysyms ++ exchanged.keysyms

/-- Whatever is held on whatever platform, one of them is produced. -/
theorem evaluate_mem_keysyms (resolution : Resolution) (bits : UInt32) (platform : Platform) :
    resolution.evaluate bits platform ∈ resolution.keysyms := by
  induction resolution with
  | fixed keysym => exact List.mem_singleton_self keysym
  | shift lower upper =>
    rw [evaluate, keysyms]
    split <;> simp
  | keypad plain onKeypad =>
    rw [evaluate, keysyms]
    split <;> simp
  | swapped normal exchanged target ihn ihe =>
    rw [evaluate, keysyms]
    split
    · exact List.mem_append_right _ ihe
    · exact List.mem_append_left _ ihn

end Resolution

/-! ## Accepted symbols -/

/-- A name on a line of the primary header consists of word characters. -/
theorem PrimarySymbol.isWord_of_ofLine {l : Numbered (List Char)} {s : PrimarySymbol}
    (h : ofLine l = .ok (some s)) : ∀ c ∈ s.name.toList, isWord c := by
  obtain ⟨d, code, hdefine, rfl⟩ := ofLine_eq_ok_some_iff.1 h
  obtain ⟨⟨_, _, _, hname, -⟩, -⟩ :=
    (Define.ofLine_eq_ok_some_iff Text.isWord_of_isLowerHexDigit).1 hdefine
  rw [name_ofDefine, String.toList_ofList]
  exact hname.all

namespace PrimaryTable

/-- What is known of a table that a text gives: it is consistent, and its names are words. -/
structure Parsed (t : PrimaryTable) : Prop where
  consistent : t.Consistent
  isWord : ∀ s ∈ t.symbols, ∀ c ∈ s.name.toList, isWord c

theorem parsed_of_ofText {source : String} {t : PrimaryTable}
    (h : (ofText source).outcome = .ok t) : t.Parsed := by
  obtain ⟨-, rfl⟩ := ofText_outcome_eq_ok_iff.1 h
  refine ⟨consistent_ofDefinitions _, ?_⟩
  intro s hs
  obtain ⟨l, -, hl⟩ := List.mem_filterMap.1 (mem_of_mem_symbols_ofDefinitions hs)
  exact PrimarySymbol.isWord_of_ofLine (foundOn_eq_some_iff.1 hl)

theorem exists_of_code? {t : PrimaryTable} {name : String} {code : Keysym}
    (h : t.code? name = some code) : ∃ s ∈ t.symbols, s.name = name ∧ s.code = code := by
  obtain ⟨s, hs, rfl⟩ := Option.map_eq_some_iff.1 h
  exact ⟨s, List.mem_of_find?_eq_some hs, by simpa using List.find?_some hs, rfl⟩

end PrimaryTable

/-! ## One key -/

namespace Resolver

/-- The tables have a symbol with the code. -/
inductive Provides (r : Resolver) (code : Keysym) : Prop where
  | accepted {s : PrimarySymbol} (h : s ∈ r.primary.symbols) (hcode : s.code = code)
  | vendor {name : String} (h : r.vendor.code? name = some code)

/-- Every keysym of the resolution has a source that the key names: a pair by Shift are the symbols
that spell the key in lower and in upper case, which have different codes, and the keysym on the
keypad is that of the symbol the overrides name. -/
inductive Sourced (r : Resolver) (key : String) : Resolution → Prop where
  | fixed {code : Keysym} (h : r.Provides code) : Sourced r key (.fixed code)
  | shift {lower upper : PrimarySymbol} (hlower : lower ∈ r.primary.symbols)
      (hupper : upper ∈ r.primary.symbols) (hlowerName : lower.name = lowercase key)
      (hupperName : upper.name = uppercase key) (hne : lower.code ≠ upper.code) :
      Sourced r key (.shift lower.code upper.code)
  | keypad {plain : Keysym} {symbol : PrimarySymbol} (h : r.Provides plain)
      (hsymbol : symbol ∈ r.primary.symbols)
      (hname : r.overrides.keypad? key = some symbol.name) :
      Sourced r key (.keypad plain symbol.code)

variable {r : Resolver} {key : String}

theorem provides_of_code? {name : String} {code : Keysym} (h : r.primary.code? name = some code) :
    r.Provides code := by
  obtain ⟨s, hs, -, hcode⟩ := PrimaryTable.exists_of_code? h
  exact .accepted hs hcode

theorem provides_of_substitute? {code : Keysym} (h : r.substitute? key = some code) :
    r.Provides code := by
  rw [substitute?, Option.or_eq_some_iff, Option.or_eq_some_iff] at h
  rcases h with h | ⟨-, h | ⟨-, h⟩⟩
  · obtain ⟨other, -, hcode⟩ := Option.bind_eq_some_iff.1 h
    exact provides_of_code? hcode
  · exact .vendor h
  · obtain ⟨other, -, hcode⟩ := Option.bind_eq_some_iff.1 h
    exact .vendor hcode

/-- The two spellings of an accepted name that is marked are two symbols: if it had one case only,
the names with its lowercase form would all be the same. -/
theorem code_ne_of_isNonUnique (h : r.primary.Parsed) (hmark : r.primary.caseIndex.isNonUnique key)
    {s lower upper : PrimarySymbol} (hs : s ∈ r.primary.symbols) (hkey : s.name = key)
    (hlower : lower ∈ r.primary.symbols) (hupper : upper ∈ r.primary.symbols)
    (hlowerName : lower.name = lowercase key) (hupperName : upper.name = uppercase key) :
    lower.code ≠ upper.code := by
  intro hcode
  -- accepted codes are unique, so a common code means one symbol and one case
  obtain rfl := List.inj_on_of_nodup_map h.consistent.codes_nodup hlower hupper hcode
  have hcase : lowercase s.name = uppercase s.name := by
    rw [hkey, ← hlowerName, hupperName]
  rw [h.consistent.caseIndex_eq, CaseIndex.isNonUnique_ofNames_iff, ← hkey] at hmark
  obtain ⟨a, ha, b, hb, hfa, hfb, hab⟩ := hmark
  have hsame : ∀ name ∈ r.primary.symbols.map (·.name), lowercase name = lowercase s.name →
      name = s.name := by
    intro name hname hfold
    obtain ⟨t, ht, rfl⟩ := List.mem_map.1 hname
    exact Text.eq_of_caseless (h.isWord t ht) (h.isWord s hs) hfold hcase
  exact hab ((hsame a ha hfa).trans (hsame b hb hfb).symm)

theorem sourced_spelled (h : r.primary.Parsed) (hmark : r.primary.caseIndex.isNonUnique key)
    {exact : Keysym} (hexact : r.primary.code? key = some exact) :
    r.Sourced key (r.spelled key exact) := by
  unfold spelled
  split
  · next hlowerCode hupperCode =>
    -- by the mark the two spellings are two symbols
    obtain ⟨s, hs, hkey, -⟩ := PrimaryTable.exists_of_code? hexact
    obtain ⟨lower, hlower, hlowerName, rfl⟩ := PrimaryTable.exists_of_code? hlowerCode
    obtain ⟨upper, hupper, hupperName, rfl⟩ := PrimaryTable.exists_of_code? hupperCode
    exact .shift hlower hupper hlowerName hupperName
      (code_ne_of_isNonUnique h hmark hs hkey hlower hupper hlowerName hupperName)
  · next hlower _ => exact .fixed (provides_of_code? hlower)
  · exact .fixed (provides_of_code? hexact)

/-- Each rule gives keysyms of the tables. -/
theorem BaseRule.sourced (h : r.primary.Parsed) {base : Resolution} (hrule : r.BaseRule key base) :
    r.Sourced key base := by
  cases hrule with
  | onlySpelling hunique =>
    obtain ⟨name, -, hcode⟩ := Option.bind_eq_some_iff.1 hunique
    exact .fixed (provides_of_code? hcode)
  | spelled hexact hmark => exact sourced_spelled h hmark hexact
  | substitute hsubstitute => exact .fixed (provides_of_substitute? hsubstitute)

theorem sourced_of_applyKeypad {base resolution : Resolution} (hbase : r.Sourced key base)
    (h : (r.applyKeypad key base).outcome = .ok resolution) : r.Sourced key resolution := by
  cases r.keypadCase key base with
  | kept hnone heq =>
    rw [heq] at h
    obtain rfl := Except.ok.inj h
    exact hbase
  | unknown hname hcode heq =>
    rw [heq] at h
    cases h
  | added hname hcode hfixed heq =>
    rw [heq] at h
    obtain rfl := Except.ok.inj h
    subst hfixed
    obtain ⟨symbol, hsymbol, rfl, rfl⟩ := PrimaryTable.exists_of_code? hcode
    cases hbase with
    | fixed hplain => exact .keypad hplain hsymbol hname
  | leftAside hname hcode hne heq =>
    rw [heq] at h
    obtain rfl := Except.ok.inj h
    exact hbase

theorem sourced_of_entryFor? (h : r.primary.Parsed) {code : UInt32} {e : Entry}
    (he : r.entryFor? (key, code) = some e) : r.Sourced key e.resolution := by
  obtain ⟨outcome, houtcome, he⟩ := Option.bind_eq_some_iff.1 he
  have hok := outcome?_eq_some_iff.1 houtcome
  cases r.keyCase (key, code) with
  | resolved hignored hrule hkeypad heq =>
    rw [heq] at hok
    obtain rfl := Except.ok.inj hok
    obtain rfl := Option.some.inj he
    exact sourced_of_applyKeypad (hrule.sourced h) hkeypad
  -- the other keys have no entry
  | ignored hignored heq =>
    rw [heq] at hok
    obtain rfl := Except.ok.inj hok
    cases he
  | unresolved hignored hd heq =>
    rw [heq] at hok
    obtain rfl := Except.ok.inj hok
    cases he
  | inconsistent hignored heq =>
    rw [heq] at hok
    cases hok
  | unknownKeypad hignored hrule hname hcode heq =>
    rw [heq] at hok
    cases hok

variable {toolkit : ToolkitTable}

theorem sourced_of_own? (h : r.primary.Parsed) {resolution : Resolution}
    (hown : r.own? toolkit key = some resolution) : r.Sourced key resolution := by
  obtain ⟨e, he, rfl⟩ := own?_eq_some_iff.1 hown
  obtain ⟨code, -, he⟩ := Option.bind_eq_some_iff.1 he
  exact sourced_of_entryFor? h he

/-! ## Entries -/

/-- The resolution of an entry has a source that its key names; if the pair was exchanged, each side
has one that the key it comes from names. -/
inductive SourcesEntry (r : Resolver) (e : Entry) : Prop where
  | own (h : r.Sourced e.name e.resolution)
  | exchanged {normal other : Resolution} {partner : String}
      (hpartner : r.overrides.swap.partner? e.name = some partner)
      (h : e.resolution = .swapped normal other r.overrides.swap.platform)
      (hnormal : r.Sourced e.name normal) (hother : r.Sourced partner other)

/-- The exchange gives each member of the pair the resolution of the other one. -/
theorem sourcesEntry_exchangeIn {a b : Resolution} (ha : r.Sourced r.overrides.swap.first a)
    (hb : r.Sourced r.overrides.swap.second b) {e : Entry} (he : r.Sourced e.name e.resolution) :
    r.SourcesEntry (exchangeIn r.overrides.swap a b e) := by
  unfold exchangeIn
  split
  · next hfirst => exact .exchanged (if_pos hfirst) rfl (hfirst ▸ ha) hb
  · next hfirst =>
    split
    · next hsecond =>
      have hpartner : r.overrides.swap.partner? e.name = some r.overrides.swap.first := by
        rw [PlatformSwap.partner?, if_neg hfirst, if_pos hsecond]
      exact .exchanged hpartner rfl (hsecond ▸ hb) ha
    · exact .own he

theorem sourcesEntry_of_mem (h : r.primary.Parsed) {table : DecisionTable}
    (hresolve : (r.resolve toolkit).outcome = .ok table) {e : Entry}
    (he : e ∈ table.entries.toList) : r.SourcesEntry e := by
  obtain ⟨e', he', rfl⟩ := exists_ownEntryFor?_of_mem hresolve he
  have hown : r.Sourced e'.name e'.resolution := by
    rw [(of_ownEntryFor?_eq_some he').1]
    exact sourced_of_own? h (own?_eq_some_iff.2 ⟨e', he', rfl⟩)
  cases ha : r.own? toolkit r.overrides.swap.first with
  | none => exact .own hown
  | some a =>
    cases hb : r.own? toolkit r.overrides.swap.second with
    | none => exact .own hown
    | some b => exact sourcesEntry_exchangeIn (sourced_of_own? h ha) (sourced_of_own? h hb) hown

/-! ## Answers -/

/-- All keysyms of a resolution with a source are ones that the tables have. -/
theorem Sourced.provides {resolution : Resolution} (h : r.Sourced key resolution) :
    ∀ k ∈ resolution.keysyms, r.Provides k := by
  cases h with
  | fixed h => simpa [Resolution.keysyms] using h
  | shift hlower hupper _ _ _ =>
    simpa [Resolution.keysyms] using
      And.intro (Provides.accepted hlower rfl) (Provides.accepted hupper rfl)
  | keypad hplain hsymbol _ =>
    simpa [Resolution.keysyms] using And.intro hplain (Provides.accepted hsymbol rfl)

theorem SourcesEntry.provides {e : Entry} (h : r.SourcesEntry e) :
    ∀ k ∈ e.resolution.keysyms, r.Provides k := by
  cases h with
  | own h => exact h.provides
  | exchanged _ h hnormal hother =>
    rw [h, Resolution.keysyms]
    exact List.forall_mem_append.2 ⟨hnormal.provides, hother.provides⟩

/-- A code that the texts of the headers give is one of an accepted symbol or of the vendor range.
-/
theorem Provides.accepted_or_vendor {code : Keysym} (h : r.Provides code) {source : String}
    (hvendor : (VendorTable.ofText source).outcome = .ok r.vendor) :
    (∃ s ∈ r.primary.symbols, s.code = code) ∨
      0x10080001 ≤ code.code ∧ code.code ≤ 0x1008FFFF := by
  cases h with
  | accepted h hcode => exact .inl ⟨_, h, hcode⟩
  | vendor h =>
    rw [VendorTable.code?_eq_defined? hvendor] at h
    exact .inr (VendorTable.isVendor_of_defined? h)

end Resolver

namespace DecisionTable

/-- The code is the keysym of a character, or one of the first entry with some toolkit code. -/
inductive Answers (t : DecisionTable) (code : Keysym) : Prop where
  | text {c : Char} (h : t.textCases.get? c.val = some code)
  | key {e : Entry} (h : (t.entries.toList.find? fun f => f.toolkitCode == e.toolkitCode) = some e)
      (hcode : code ∈ e.resolution.keysyms)

/-- No other code is an answer to a key event. -/
theorem answers_of_dispatch_eq_some {t : DecisionTable} {key bits : UInt32} {text : String}
    {platform : Platform} {code : Keysym} (h : t.dispatch key bits text platform = some code) :
    t.Answers code := by
  rw [dispatch_eq_or, Option.or_eq_some_iff] at h
  rcases h with h | ⟨-, h⟩
  · unfold dispatchText? at h
    split at h
    · exact .text h
    · cases h
  · obtain ⟨e, he, rfl⟩ := Option.map_eq_some_iff.1 h
    obtain rfl : e.toolkitCode = key := by simpa using List.find?_some he
    exact .key he (e.resolution.evaluate_mem_keysyms bits platform)

/-- Every keysym of a table has a source. -/
structure HasSources (t : DecisionTable) (r : Resolver) : Prop where
  entry_sourced : ∀ e ∈ t.entries.toList, r.SourcesEntry e
  textCase_sourced : ∀ p ∈ t.textCases.toList,
    ∃ s ∈ r.primary.symbols, s.declares p.1 ∧ s.code = p.2
  dispatch_sourced : ∀ key bits text platform code,
    t.dispatch key bits text platform = some code →
      (∃ s ∈ r.primary.symbols, s.code = code) ∨
        0x10080001 ≤ code.code ∧ code.code ≤ 0x1008FFFF

end DecisionTable

/-- The keysym of a character is the code of an accepted symbol that declares it. -/
theorem Resolver.exists_of_mem_textCases {r : Resolver} (h : r.primary.Consistent)
    {toolkit : ToolkitTable} {table : DecisionTable}
    (hresolve : (r.resolve toolkit).outcome = .ok table) {p : UInt32 × Keysym}
    (hp : p ∈ table.textCases.toList) : ∃ s ∈ r.primary.symbols, s.declares p.1 ∧ s.code = p.2 := by
  obtain ⟨_, -, rfl⟩ := exists_exchanged_of_resolve hresolve
  have hget : (textCases r.primary).get? p.1 = some p.2 := SortedMap.get?_eq_some_iff.2 hp
  rw [textCases_get?_eq_find? h] at hget
  obtain ⟨s, hs, hcode⟩ := Option.map_eq_some_iff.1 hget
  exact ⟨s, List.mem_of_find?_eq_some hs, by simpa using List.find?_some hs, hcode⟩

/-- Every keysym of a table over headers that can be read is the code of an accepted symbol or of
the vendor range, and each comes from the symbols that its key names. -/
theorem resolve_hasSources {source vendorSource : String} {primary : PrimaryTable}
    {vendor : VendorTable} (hprimary : (PrimaryTable.ofText source).outcome = .ok primary)
    (hvendor : (VendorTable.ofText vendorSource).outcome = .ok vendor) {overrides : Overrides}
    {toolkit : ToolkitTable} {table : DecisionTable}
    (h : ((Resolver.mk primary vendor overrides).resolve toolkit).outcome = .ok table) :
    table.HasSources ⟨primary, vendor, overrides⟩ := by
  have hparsed := PrimaryTable.parsed_of_ofText hprimary
  have hentry : ∀ e ∈ table.entries.toList, Resolver.SourcesEntry ⟨primary, vendor, overrides⟩ e :=
    fun e he => Resolver.sourcesEntry_of_mem hparsed h he
  have htext : ∀ p ∈ table.textCases.toList,
      ∃ s ∈ primary.symbols, s.declares p.1 ∧ s.code = p.2 :=
    fun p hp => Resolver.exists_of_mem_textCases hparsed.consistent h hp
  refine ⟨hentry, htext, ?_⟩
  intro key bits text platform code hdispatch
  cases DecisionTable.answers_of_dispatch_eq_some hdispatch with
  | text h =>
    obtain ⟨s, hs, -, hcode⟩ := htext _ (SortedMap.get?_eq_some_iff.1 h)
    exact .inl ⟨s, hs, hcode⟩
  | key h hcode =>
    exact ((hentry _ (List.mem_of_find?_eq_some h)).provides code hcode).accepted_or_vendor hvendor

/-- Overrides that take `Control` for `a`, with `A` on the keypad, and `Meta` for a vendor symbol.
-/
def sourcedOverrides : Overrides :=
  (Overrides.empty.extend
    ⟨.ofList [("Control", "a"), ("Meta", "AudioStop")], .ofList [("Control", "A")], []⟩).1

/-- Control and Meta, and a letter. -/
def sourcedKeys : ToolkitTable :=
  .ofPairs [("Meta", 0x01000022), ("A", 0x41), ("Control", 0x01000021)]

/-- The letter is a pair by Shift, and the exchange has a keysym of each source. -/
def sourcedDecisions : DecisionTable where
  textCases := .ofList [(0x61, ⟨0x61⟩)]
  entries := #[
    ⟨"A", 0x41, .shift ⟨0x61⟩ ⟨0x63⟩⟩,
    ⟨"Control", 0x01000021, .swapped (.keypad ⟨0x61⟩ ⟨0x63⟩) (.fixed ⟨0x1008FF15⟩) .macOS⟩,
    ⟨"Meta", 0x01000022, .swapped (.fixed ⟨0x1008FF15⟩) (.keypad ⟨0x61⟩ ⟨0x63⟩) .macOS⟩]
  diagnostics := []

theorem resolve_sourcedKeys :
    ((Resolver.mk PrimaryTable.mixedTable mediaVendor sourcedOverrides).resolve
      sourcedKeys).outcome = .ok sourcedDecisions := by
  decide +kernel

/-- On macOS the code of Control has the keysym of the vendor. -/
theorem resolve_hasSources_sourcedKeys :
    (PrimaryTable.ofText PrimaryTable.mixedHeader).outcome = .ok PrimaryTable.mixedTable ∧
      (VendorTable.ofText mediaHeader).outcome = .ok mediaVendor ∧
      ((Resolver.mk PrimaryTable.mixedTable mediaVendor sourcedOverrides).resolve
        sourcedKeys).outcome = .ok sourcedDecisions ∧
      sourcedDecisions.HasSources ⟨PrimaryTable.mixedTable, mediaVendor, sourcedOverrides⟩ ∧
      sourcedDecisions.dispatch 0x01000021 0 "" .macOS = some ⟨0x1008FF15⟩ :=
  ⟨PrimaryTable.ofText_mixedHeader, ofText_mediaHeader, resolve_sourcedKeys,
    resolve_hasSources PrimaryTable.ofText_mixedHeader ofText_mediaHeader resolve_sourcedKeys,
    by decide⟩

end KeyDispatch
