import KeyDispatch.Generation
import KeyDispatch.Proofs.FirstWins
import KeyDispatch.Proofs.KeyOutcomes
import KeyDispatch.Proofs.LineGrammar
import KeyDispatch.Proofs.Token

/-!
# The entries of a table

The keys of a table's entries are keys that the toolkit's header lists, in the same order. So they
have different names, and each name is a run of word characters.
-/

namespace KeyDispatch

/-- Name and code of an entry's key. -/
def Entry.key (e : Entry) : String × UInt32 := (e.name, e.toolkitCode)

/-- Name of the constant that stands for the code of an entry's key. -/
def Entry.constant (e : Entry) : String := "Key_" ++ e.name

/-- Different names have different constants. -/
theorem Entry.constant_inj {e f : Entry} : e.constant = f.constant ↔ e.name = f.name :=
  String.append_right_inj "Key_"

/-- The prefix and the name make up the constant, whatever follows. -/
theorem Entry.append_toList_name (e : Entry) (cs : List Char) :
    "Key_".toList ++ (e.name.toList ++ cs) = e.constant.toList ++ cs := by
  rw [Entry.constant, String.toList_append, List.append_assoc]

theorem Entry.toList_constant (e : Entry) :
    e.constant.toList = 'K' :: 'e' :: 'y' :: '_' :: e.name.toList := by
  rw [Entry.constant, String.toList_append]
  rfl

/-- The constant of a name that consists of word characters can name something. -/
theorem Entry.isIdentifier_constant {e : Entry} (h : ∀ c ∈ e.name.toList, Text.isWord c) :
    Token.IsIdentifier e.constant := by
  have hlist := e.toList_constant
  have hchars : ∀ c ∈ e.constant.toList, Token.isWordChar c := by
    intro c hc
    rw [hlist] at hc
    simp only [List.mem_cons] at hc
    -- the four characters of the prefix, or one of the name
    rcases hc with rfl | rfl | rfl | rfl | hc
    · rfl
    · rfl
    · rfl
    · rfl
    · rw [Token.isWordChar, h c hc]
      rfl
  refine ⟨?_, hchars, ?_⟩
  · intro he
    rw [he] at hlist
    cases hlist
  · rw [hlist]
    intro c hc
    obtain rfl := Option.some.inj hc
    rfl

namespace ToolkitTable

/-- The keys that a text lists, in the order of its lines. -/
def definitionLines (source : String) : List (String × UInt32) :=
  (numberedLines source).filterMap (foundOn ofLine)

/-- A text gives the table of the keys on its lines. -/
theorem eq_ofPairs_of_ofText {source : String} {t : ToolkitTable}
    (h : (ofText source).outcome = .ok t) : t = ofPairs (definitionLines source) := by
  obtain ⟨hfailure, rfl⟩ := ofText_outcome_eq_ok_iff_definitions.1 h
  rw [definitionLines, ← scan_found_of_failure_eq_none hfailure, definitions]

/-- A name on a line is not empty and consists of word characters. -/
theorem isWord_of_foundOn {l : Numbered (List Char)} {key : String × UInt32}
    (h : foundOn ofLine l = some key) : key.1 ≠ "" ∧ ∀ c ∈ key.1.toList, Text.isWord c := by
  obtain ⟨_, ⟨_, _, _, _, -, hname, -⟩, -⟩ := ofLine_eq_ok_some_iff.1 (foundOn_eq_some_iff.1 h)
  exact ⟨fun hempty => hname.ne_nil (by rw [hempty]; rfl), hname.all⟩

/-- So are the names of a table that a text gives. -/
theorem isWord_of_mem_toList {source : String} {t : ToolkitTable}
    (h : (ofText source).outcome = .ok t) {key : String × UInt32} (hkey : key ∈ t.toList) :
    key.1 ≠ "" ∧ ∀ c ∈ key.1.toList, Text.isWord c := by
  rw [eq_ofPairs_of_ofText h] at hkey
  obtain ⟨l, -, hl⟩ := List.mem_filterMap.1 (SortedMap.mem_of_mem_toList_ofList hkey)
  exact isWord_of_foundOn hl

end ToolkitTable

namespace Resolver

variable {r : Resolver}

/-- An entry is one of the key it comes from. -/
theorem key_of_entryFor? {key : String × UInt32} {e : Entry} (h : r.entryFor? key = some e) :
    e.key = key := by
  obtain ⟨-, -, he⟩ := of_entryFor?_eq_some h
  rw [he]
  rfl

/-- The keys of the entries are the keys that have one, in order. -/
theorem map_key_filterMap_entryFor? (keys : List (String × UInt32)) :
    (keys.filterMap r.entryFor?).map Entry.key =
      keys.filter fun key => (r.entryFor? key).isSome := by
  rw [List.map_filterMap, ← List.filterMap_eq_filter]
  apply List.filterMap_congr
  intro key _
  cases he : r.entryFor? key with
  | none => simp [Option.guard, he]
  | some e => simp [Option.guard, he, key_of_entryFor? he]

/-- An entry after the exchange of two members whose own resolutions are `a` and `b`. -/
def exchangeIn (swap : PlatformSwap) (a b : Resolution) (e : Entry) : Entry :=
  if e.name = swap.first then { e with resolution := .swapped a b swap.platform }
  else if e.name = swap.second then { e with resolution := .swapped b a swap.platform }
  else e

/-- What the exchange makes of entries, by the members of the pair that have one. -/
inductive Exchanged (swap : PlatformSwap) (entries : List Entry) :
    List Entry × Option Diagnostic → Prop where
  | both {a b : Entry} (ha : (entries.find? (·.name == swap.first)) = some a)
      (hb : (entries.find? (·.name == swap.second)) = some b) :
      Exchanged swap entries (entries.map (exchangeIn swap a.resolution b.resolution), none)
  | onlyFirst {a : Entry} (ha : (entries.find? (·.name == swap.first)) = some a)
      (hb : (entries.find? (·.name == swap.second)) = none) :
      Exchanged swap entries (entries, some (.swapPartnerUnresolved swap.first swap.second))
  | onlySecond {b : Entry} (ha : (entries.find? (·.name == swap.first)) = none)
      (hb : (entries.find? (·.name == swap.second)) = some b) :
      Exchanged swap entries (entries, some (.swapPartnerUnresolved swap.second swap.first))
  | neither (ha : (entries.find? (·.name == swap.first)) = none)
      (hb : (entries.find? (·.name == swap.second)) = none) :
      Exchanged swap entries (entries, none)

theorem exchanged_exchange (swap : PlatformSwap) (entries : List Entry) :
    Exchanged swap entries (exchange swap entries) := by
  unfold exchange
  split
  · rename_i a b ha hb
    exact .both ha hb
  · rename_i a ha hb
    exact .onlyFirst ha hb
  · rename_i b ha hb
    exact .onlySecond ha hb
  · rename_i ha hb
    exact .neither ha hb

/-- Only the resolution of an entry changes. -/
theorem key_exchangeIn (swap : PlatformSwap) (a b : Resolution) (e : Entry) :
    (exchangeIn swap a b e).key = e.key := by
  unfold exchangeIn
  split
  · rfl
  · split
    · rfl
    · rfl

/-- The exchange leaves every key where it is. -/
theorem Exchanged.map_key {swap : PlatformSwap} {entries : List Entry}
    {exchanged : List Entry × Option Diagnostic} (h : Exchanged swap entries exchanged) :
    exchanged.1.map Entry.key = entries.map Entry.key := by
  cases h with
  | both ha hb =>
    rw [List.map_map]
    apply List.map_congr_left
    intro e _
    exact key_exchangeIn swap _ _ e
  | onlyFirst ha hb => rfl
  | onlySecond ha hb => rfl
  | neither ha hb => rfl

/-- The table of the keys' outcomes. -/
def tableOf (r : Resolver) (outcomes : List KeyOutcome) : DecisionTable :=
  let exchanged := exchange r.overrides.swap (outcomes.filterMap (·.entryOf?))
  ⟨textCases r.primary, exchanged.1.toArray,
    outcomes.filterMap (·.diagnosticOf?) ++ exchanged.2.toList⟩

/-- Keys give a table if each can be resolved. -/
theorem resolve_outcome_eq_ok_iff {toolkit : ToolkitTable} {table : DecisionTable} :
    (r.resolve toolkit).outcome = .ok table ↔
      ∃ outcomes, (r.resolveKeys toolkit.toList).outcome = .ok outcomes ∧
        r.tableOf outcomes = table := by
  rw [resolve, Logged.outcome_bind_eq_ok_iff]
  apply exists_congr
  intro outcomes
  apply and_congr_right
  intro _
  constructor
  · exact Except.ok.inj
  · exact congrArg Except.ok

/-- A table consists of what its keys yield by themselves, and of what the exchange makes of it. -/
theorem exists_exchanged_of_resolve {toolkit : ToolkitTable} {table : DecisionTable}
    (h : (r.resolve toolkit).outcome = .ok table) :
    ∃ exchanged, Exchanged r.overrides.swap (toolkit.toList.filterMap r.entryFor?) exchanged ∧
      table = ⟨textCases r.primary, exchanged.1.toArray,
        toolkit.toList.filterMap r.diagnostic? ++ exchanged.2.toList⟩ := by
  obtain ⟨outcomes, hkeys, rfl⟩ := resolve_outcome_eq_ok_iff.1 h
  have hentries := filterMap_of_resolveKeys hkeys KeyOutcome.entryOf?
  have hdiagnostics := filterMap_of_resolveKeys hkeys KeyOutcome.diagnosticOf?
  refine ⟨_, exchanged_exchange _ _, ?_⟩
  rw [tableOf, hentries, hdiagnostics]
  rfl

/-- Every key of the toolkit of a table has an outcome. -/
theorem exists_settles_of_resolve {toolkit : ToolkitTable} {table : DecisionTable}
    (h : (r.resolve toolkit).outcome = .ok table) {key : String × UInt32}
    (hkey : key ∈ toolkit.toList) :
    ∃ outcome, r.outcome? key = some outcome ∧ r.Settles key outcome := by
  obtain ⟨outcomes, hkeys, -⟩ := resolve_outcome_eq_ok_iff.1 h
  have hmem : r.outcome? key ∈ outcomes.map some := by
    rw [← resolveKeys_outcome_eq_ok_iff.1 hkeys]
    exact List.mem_map_of_mem hkey
  obtain ⟨outcome, -, hsome⟩ := List.mem_map.1 hmem
  exact ⟨outcome, hsome.symm, settles_of_resolveKey (outcome?_eq_some_iff.1 hsome.symm)⟩

/-- The keys of a table's entries are the keys of the toolkit that have an entry, in order. -/
theorem map_key_of_resolve {toolkit : ToolkitTable} {table : DecisionTable}
    (h : (r.resolve toolkit).outcome = .ok table) :
    table.entries.toList.map Entry.key =
      toolkit.toList.filter fun key => (r.entryFor? key).isSome := by
  obtain ⟨exchanged, hexchanged, rfl⟩ := exists_exchanged_of_resolve h
  rw [List.toList_toArray, hexchanged.map_key, map_key_filterMap_entryFor?]

/-- The keys of a table's entries are keys of the toolkit, in order. -/
theorem map_key_sublist_of_resolve {toolkit : ToolkitTable} {table : DecisionTable}
    (h : (r.resolve toolkit).outcome = .ok table) :
    (table.entries.toList.map Entry.key).Sublist toolkit.toList := by
  rw [map_key_of_resolve h]
  exact List.filter_sublist

end Resolver

/-- Headers give a table if each can be read and the keys can be resolved. -/
theorem buildTable_outcome_eq_ok_iff {sources : SourceTexts} {overrides : Overrides}
    {table : DecisionTable} :
    (buildTable sources overrides).outcome = .ok table ↔
      ∃ primary, (PrimaryTable.ofText sources.keysymdef).outcome = .ok primary ∧
      ∃ vendor, (VendorTable.ofText sources.vendor).outcome = .ok vendor ∧
      ∃ toolkit, (ToolkitTable.ofText sources.toolkit).outcome = .ok toolkit ∧
        (Resolver.resolve ⟨primary, vendor, overrides⟩ toolkit).outcome = .ok table := by
  simp only [buildTable, Logged.outcome_bind_eq_ok_iff, Logged.outcome_mapError_eq_ok_iff]

/-- The entries of the table are for keys of the toolkit in order, which have different names. -/
structure DecisionTable.Lists (t : DecisionTable) (toolkit : ToolkitTable) : Prop where
  sublist : (t.entries.toList.map Entry.key).Sublist toolkit.toList
  isWord : ∀ e ∈ t.entries.toList, e.name ≠ "" ∧ ∀ c ∈ e.name.toList, Text.isWord c

namespace DecisionTable.Lists

variable {t : DecisionTable} {toolkit : ToolkitTable}

/-- The names of the entries are different from one another. -/
theorem names_nodup (h : t.Lists toolkit) : (t.entries.toList.map (·.name)).Nodup := by
  have hkeys := toolkit.keys.keys_ne.sublist h.sublist
  rw [List.pairwise_map] at hkeys
  rw [List.Nodup, List.pairwise_map]
  exact hkeys

/-- The toolkit knows the code of each entry's key. -/
theorem code?_name (h : t.Lists toolkit) {e : Entry} (he : e ∈ t.entries.toList) :
    toolkit.code? e.name = some e.toolkitCode :=
  SortedMap.get?_eq_some_iff.2 (h.sublist.subset (List.mem_map_of_mem he))

end DecisionTable.Lists

/-- A table that headers give lists keys of the toolkit's header. -/
theorem exists_lists_of_buildTable {sources : SourceTexts} {overrides : Overrides}
    {table : DecisionTable} (h : (buildTable sources overrides).outcome = .ok table) :
    ∃ toolkit, (ToolkitTable.ofText sources.toolkit).outcome = .ok toolkit ∧
      table.Lists toolkit := by
  obtain ⟨primary, -, vendor, -, toolkit, htoolkit, hresolve⟩ := buildTable_outcome_eq_ok_iff.1 h
  have hsub := Resolver.map_key_sublist_of_resolve hresolve
  refine ⟨toolkit, htoolkit, hsub, ?_⟩
  intro e he
  exact ToolkitTable.isWord_of_mem_toList htoolkit (hsub.subset (List.mem_map_of_mem he))

end KeyDispatch
