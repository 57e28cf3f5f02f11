import KeyDispatch.Proofs.TableEntries

/-!
# Every key is accounted for

Each key of a toolkit table is ignored, resolved or unresolved in the decision table, and in one of
these ways only; entries and diagnostics stand in the order of the keys
(`resolve_accountsFor`). Because the entries are in order, the search for a name by halves finds
whatever entry there is (`DecisionTable.find?_eq_some_iff`).
-/

namespace KeyDispatch

open Text (Precedes)

/-- The key stays without a keysym. -/
def Diagnostic.leavesOut : Diagnostic → Bool
  | .caseMismatch _ => true
  | .noMatch _ => true
  | .swapPartnerUnresolved _ _ => false

/-- What can become of a key in a table. -/
inductive KeyClass where
  | ignored
  | resolved
  | unresolved
deriving DecidableEq

namespace DecisionTable

variable {t : DecisionTable}

/-- The entries under a name. -/
def entriesOf (t : DecisionTable) (name : String) : List Entry :=
  t.entries.toList.filter fun e => e.name == name

/-- The diagnostics about a key. -/
def diagnosticsOf (t : DecisionTable) (name : String) : List Diagnostic :=
  t.diagnostics.filter fun d => d.key == name

/-- The key is to be left out, and the table does not mention it; or it has one entry, with its own
code, and no diagnostic says that it stays without a keysym; or it has no entry and one diagnostic,
which says so. -/
def InClass (t : DecisionTable) (overrides : Overrides) (key : String × UInt32) : KeyClass → Prop
  | .ignored => overrides.isIgnored key.1 = true ∧ t.entriesOf key.1 = [] ∧
      t.diagnosticsOf key.1 = []
  | .resolved => overrides.isIgnored key.1 = false ∧
      (∃ resolution, t.entriesOf key.1 = [⟨key.1, key.2, resolution⟩]) ∧
      (t.diagnosticsOf key.1).filter Diagnostic.leavesOut = []
  | .unresolved => overrides.isIgnored key.1 = false ∧ t.entriesOf key.1 = [] ∧
      ∃ d, (d = .caseMismatch key.1 ∨ d = .noMatch key.1) ∧ t.diagnosticsOf key.1 = [d]

/-- The class of a key can be told from its being ignored and from its having an entry. -/
theorem InClass.eq_ite {overrides : Overrides} {key : String × UInt32} {c : KeyClass}
    (h : t.InClass overrides key c) :
    c = if overrides.isIgnored key.1 then .ignored
      else if (t.entriesOf key.1).isEmpty then .unresolved else .resolved := by
  cases c with
  | ignored => simp [h.1]
  | resolved =>
    obtain ⟨hignored, ⟨resolution, hentries⟩, -⟩ := h
    simp [hignored, hentries]
  | unresolved => simp [h.1, h.2.1]

/-! ## Search by halves -/

/-- Among ascending names a search finds whatever stands between its bounds under the name. -/
theorem search_eq_some_iff {entries : Array Entry} {name : String}
    (h : entries.toList.Pairwise fun a b => Precedes a.name b.name) {lo hi : Nat}
    (hhi : hi ≤ entries.size) {e : Entry} :
    search entries name lo hi = some e ↔
      ∃ i, ∃ hi' : i < entries.size, lo ≤ i ∧ i < hi ∧ entries[i] = e ∧ e.name = name := by
  have hlt : ∀ {i j : Nat} (hi' : i < entries.size) (hj : j < entries.size), i < j →
      Precedes entries[i].name entries[j].name := by
    intro i j hi' hj hij
    exact List.pairwise_iff_getElem.1 h i j (by simpa using hi') (by simpa using hj) hij
  fun_induction search entries name lo hi with
  | case1 lo hi hbounds hmid middle heq =>
    -- the entry in the middle has the name, and no other entry has
    have hname : middle.name = name := Std.LawfulEqCmp.eq_of_compare heq
    constructor
    · intro he
      obtain rfl := Option.some.inj he
      exact ⟨(lo + hi) / 2, hmid, by omega, by omega, rfl, hname⟩
    · rintro ⟨i, hi', -, -, rfl, hi''⟩
      rcases Nat.lt_trichotomy i ((lo + hi) / 2) with hlow | rfl | hhigh
      · exact absurd (hi''.trans hname.symm) (hlt hi' hmid hlow).ne
      · rfl
      · exact absurd (hname.trans hi''.symm) (hlt hmid hi' hhigh).ne
  | case2 lo hi hbounds hmid middle hless ih =>
    -- the entry in the middle comes before the name, and so does every entry before it
    have hbefore : Precedes middle.name name := Text.compare_eq_lt_iff.1 hless
    refine (ih hhi).trans ?_
    constructor
    · rintro ⟨i, hi', hlo, hhi', he⟩
      exact ⟨i, hi', by omega, hhi', he⟩
    · rintro ⟨i, hi', hlo, hhi', rfl, hname⟩
      refine ⟨i, hi', ?_, hhi', rfl, hname⟩
      by_contra hlow
      rcases Nat.lt_or_eq_of_le (show i ≤ (lo + hi) / 2 by omega) with hlow | rfl
      · have hafter := hlt hi' hmid hlow
        rw [hname] at hafter
        exact hafter.asymm hbefore
      · exact hbefore.ne hname
  | case3 lo hi hbounds hmid middle hgreater ih =>
    -- the entry in the middle comes behind the name, and so does every entry behind it
    have hbehind : Precedes name middle.name :=
      Text.compare_eq_lt_iff.1 (Std.OrientedCmp.lt_of_gt hgreater)
    refine (ih (by omega)).trans ?_
    constructor
    · rintro ⟨i, hi', hlo, hhi', he⟩
      exact ⟨i, hi', hlo, by omega, he⟩
    · rintro ⟨i, hi', hlo, hhi', rfl, hname⟩
      refine ⟨i, hi', hlo, ?_, rfl, hname⟩
      by_contra hhigh
      rcases Nat.lt_or_eq_of_le (show (lo + hi) / 2 ≤ i by omega) with hhigh | rfl
      · have hbefore := hlt hmid hi' hhigh
        rw [hname] at hbefore
        exact hbefore.asymm hbehind
      · exact hbehind.ne hname.symm
  | case4 lo hi hbounds =>
    refine iff_of_false (by simp) ?_
    rintro ⟨i, -, hlo, hhi', -⟩
    exact hbounds ⟨by omega, hhi⟩

/-- The search of a table with ascending names finds whatever entry has the name. -/
theorem find?_eq_some_iff (h : t.entries.toList.Pairwise fun a b => Precedes a.name b.name)
    {name : String} {e : Entry} :
    t.find? name = some e ↔ e ∈ t.entries.toList ∧ e.name = name := by
  rw [find?, search_eq_some_iff h le_rfl, Array.mem_toList_iff, Array.mem_iff_getElem]
  constructor
  · rintro ⟨i, hi, -, -, he, hname⟩
    exact ⟨⟨i, hi, he⟩, hname⟩
  · rintro ⟨⟨i, hi, he⟩, hname⟩
    exact ⟨i, hi, Nat.zero_le i, hi, he, hname⟩

/-- The table accounts for each key of a toolkit table and mentions no other; entries and
diagnostics stand in the order of the keys, and a search finds each entry. -/
structure AccountsFor (t : DecisionTable) (overrides : Overrides) (toolkit : ToolkitTable) :
    Prop where
  existsUnique_class : ∀ key ∈ toolkit.toList, ∃! c, t.InClass overrides key c
  entry_listed : ∀ e ∈ t.entries.toList, toolkit.code? e.name = some e.toolkitCode
  diagnostic_listed : ∀ d ∈ t.diagnostics, (toolkit.code? d.key).isSome
  entries_ascending : t.entries.toList.Pairwise fun a b => Precedes a.name b.name
  /-- At most one diagnostic says that a key is not exchanged, and it is the last one. -/
  diagnostics_eq : ∃ (unresolved : List Diagnostic) (unswapped : Option Diagnostic),
    t.diagnostics = unresolved ++ unswapped.toList ∧
    (∀ d ∈ unresolved, d = .caseMismatch d.key ∨ d = .noMatch d.key) ∧
    unresolved.Pairwise (fun a b => Precedes a.key b.key) ∧
    ∀ d ∈ unswapped, ∃ key partner, d = .swapPartnerUnresolved key partner
  find?_eq_some : ∀ name e, t.find? name = some e ↔ e ∈ t.entries.toList ∧ e.name = name

end DecisionTable

namespace Resolver

variable {r : Resolver} {toolkit : ToolkitTable}

/-- A diagnostic of the exchange is about an entry. -/
theorem Exchanged.of_diagnostic {swap : PlatformSwap} {entries : List Entry}
    {exchanged : List Entry × Option Diagnostic} (h : Exchanged swap entries exchanged)
    {d : Diagnostic} (hd : exchanged.2 = some d) :
    (∃ key partner, d = .swapPartnerUnresolved key partner) ∧
      ∃ e ∈ entries, e.name = d.key := by
  cases h with
  | both ha hb => cases hd
  | onlyFirst ha hb =>
    obtain rfl := Option.some.inj hd
    have hname := List.find?_some ha
    exact ⟨⟨_, _, rfl⟩, _, List.mem_of_find?_eq_some ha, eq_of_beq hname⟩
  | onlySecond ha hb =>
    obtain rfl := Option.some.inj hd
    have hname := List.find?_some hb
    exact ⟨⟨_, _, rfl⟩, _, List.mem_of_find?_eq_some hb, eq_of_beq hname⟩
  | neither ha hb => cases hd

section Table

variable {table : DecisionTable} {key : String × UInt32}

/-- A key of the toolkit has an entry in the table if it has one by itself, and no other entry has
its name. -/
theorem map_key_entriesOf (h : (r.resolve toolkit).outcome = .ok table)
    (hkey : key ∈ toolkit.toList) :
    (table.entriesOf key.1).map Entry.key = if (r.entryFor? key).isSome then [key] else [] := by
  have hfilter : (table.entriesOf key.1).map Entry.key =
      (table.entries.toList.map Entry.key).filter fun k => k.1 == key.1 := by
    rw [List.filter_map]
    rfl
  rw [hfilter, map_key_of_resolve h, List.filter_comm, ToolkitTable.filter_toList hkey]
  cases he : r.entryFor? key with
  | none => simp [he]
  | some e => simp [he]

/-- The diagnostics about a key of the toolkit are its own, and one that it is not exchanged. -/
theorem exists_diagnosticsOf_eq (h : (r.resolve toolkit).outcome = .ok table)
    (hkey : key ∈ toolkit.toList) :
    ∃ unswapped : List Diagnostic,
      table.diagnosticsOf key.1 = (r.diagnostic? key).toList ++ unswapped ∧
        ∀ d ∈ unswapped, d.leavesOut = false ∧ (r.entryFor? key).isSome := by
  obtain ⟨exchanged, hexchanged, rfl⟩ := exists_exchanged_of_resolve h
  refine ⟨exchanged.2.toList.filter fun d => d.key == key.1, ?_, ?_⟩
  · rw [DecisionTable.diagnosticsOf, List.filter_append,
      ToolkitTable.filter_filterMap_toList (fun _ _ hd => key_of_diagnostic? hd) hkey]
  · intro d hd
    obtain ⟨hd, hname⟩ := List.mem_filter.1 hd
    obtain ⟨⟨_, _, rfl⟩, e, he, hkeyName⟩ :=
      hexchanged.of_diagnostic (Option.mem_toList.1 hd)
    refine ⟨rfl, ?_⟩
    -- the entry that the diagnostic is about is the key's own
    obtain ⟨other, hother, he⟩ := List.mem_filterMap.1 he
    have hotherName : other.1 = key.1 :=
      (name_of_entryFor? he).symm.trans (hkeyName.trans (eq_of_beq hname))
    have hsame : other ∈ toolkit.toList.filter fun k => k.1 == key.1 :=
      List.mem_filter.2 ⟨hother, by simp [hotherName]⟩
    rw [ToolkitTable.filter_toList hkey, List.mem_singleton] at hsame
    rw [← hsame, he]
    rfl

/-- A key of the toolkit is in the class that its outcome says. -/
theorem exists_inClass (h : (r.resolve toolkit).outcome = .ok table)
    (hkey : key ∈ toolkit.toList) : ∃ c, table.InClass r.overrides key c := by
  obtain ⟨outcome, houtcome, hsettles⟩ := exists_settles_of_resolve h hkey
  have hentries := map_key_entriesOf h hkey
  obtain ⟨unswapped, hdiagnostics, hunswapped⟩ := exists_diagnosticsOf_eq h hkey
  have hentry : r.entryFor? key = outcome.entryOf? := by rw [entryFor?, houtcome]; rfl
  have hdiagnostic : r.diagnostic? key = outcome.diagnosticOf? := by
    rw [diagnostic?, houtcome]
    rfl
  -- without an entry nothing is said about an exchange
  have hnil : r.entryFor? key = none → unswapped = [] := by
    intro hnone
    rw [List.eq_nil_iff_forall_not_mem]
    intro d hd
    have hsome := (hunswapped d hd).2
    simp [hnone] at hsome
  rw [hentry] at hentries hnil
  rw [hdiagnostic] at hdiagnostics
  cases hsettles with
  | ignored hignored =>
    rw [hnil rfl] at hdiagnostics
    exact ⟨.ignored, hignored, List.map_eq_nil_iff.1 hentries, hdiagnostics⟩
  | unresolved hignored hd =>
    rw [hnil rfl] at hdiagnostics
    exact ⟨.unresolved, hignored, List.map_eq_nil_iff.1 hentries, _, hd, hdiagnostics⟩
  | resolved hignored hswap =>
    refine ⟨.resolved, hignored, ?_, ?_⟩
    · obtain ⟨e, hlist, rfl⟩ := List.map_eq_singleton_iff.1 hentries
      exact ⟨e.resolution, hlist⟩
    · rw [hdiagnostics, List.filter_eq_nil_iff]
      intro d hd
      simp [(hunswapped d (by simpa [KeyOutcome.diagnosticOf?] using hd)).1]

/-- The entries of a table stand in the order of their names. -/
theorem entries_ascending (h : (r.resolve toolkit).outcome = .ok table) :
    table.entries.toList.Pairwise fun a b => Precedes a.name b.name := by
  have hkeys := toolkit.keys.ascending.sublist (map_key_sublist_of_resolve h)
  rw [List.pairwise_map] at hkeys
  exact hkeys.imp fun hlt => Text.compare_eq_lt_iff.1 hlt

/-- A diagnostic is about a key of the toolkit. -/
theorem exists_key_of_diagnostic (h : (r.resolve toolkit).outcome = .ok table) {d : Diagnostic}
    (hd : d ∈ table.diagnostics) : ∃ key ∈ toolkit.toList, key.1 = d.key := by
  obtain ⟨exchanged, hexchanged, rfl⟩ := exists_exchanged_of_resolve h
  rcases List.mem_append.1 hd with hd | hd
  · obtain ⟨key, hkey, hd⟩ := List.mem_filterMap.1 hd
    exact ⟨key, hkey, (key_of_diagnostic? hd).symm⟩
  · obtain ⟨-, e, he, hname⟩ := hexchanged.of_diagnostic (Option.mem_toList.1 hd)
    obtain ⟨key, hkey, he⟩ := List.mem_filterMap.1 he
    exact ⟨key, hkey, (name_of_entryFor? he).symm.trans hname⟩

/-- The diagnostics of the keys stand in the order of the keys, and one of the exchange at most
comes behind them. -/
theorem exists_diagnostics_eq (h : (r.resolve toolkit).outcome = .ok table) :
    ∃ (unresolved : List Diagnostic) (unswapped : Option Diagnostic),
      table.diagnostics = unresolved ++ unswapped.toList ∧
      (∀ d ∈ unresolved, d = .caseMismatch d.key ∨ d = .noMatch d.key) ∧
      unresolved.Pairwise (fun a b => Precedes a.key b.key) ∧
      ∀ d ∈ unswapped, ∃ key partner, d = .swapPartnerUnresolved key partner := by
  obtain ⟨exchanged, hexchanged, rfl⟩ := exists_exchanged_of_resolve h
  refine ⟨_, exchanged.2, rfl, ?_, ?_, ?_⟩
  · intro d hd
    obtain ⟨key, -, hd⟩ := List.mem_filterMap.1 hd
    rw [key_of_diagnostic? hd]
    exact (of_diagnostic?_eq_some hd).2
  · exact toolkit.keys.map_filterMap_toList_pairwise fun _ _ hd => key_of_diagnostic? hd
  · intro d hd
    exact (hexchanged.of_diagnostic hd).1

end Table

end Resolver

/-- Every table that is made accounts for the keys of the toolkit. -/
theorem resolve_accountsFor {r : Resolver} {toolkit : ToolkitTable} {table : DecisionTable}
    (h : (r.resolve toolkit).outcome = .ok table) : table.AccountsFor r.overrides toolkit := by
  refine ⟨?_, ?_, ?_, Resolver.entries_ascending h, Resolver.exists_diagnostics_eq h, ?_⟩
  · intro key hkey
    obtain ⟨c, hc⟩ := Resolver.exists_inClass h hkey
    exact ⟨c, hc, fun c' hc' => hc'.eq_ite.trans hc.eq_ite.symm⟩
  · intro e he
    have hmem := (Resolver.map_key_sublist_of_resolve h).subset (List.mem_map_of_mem he)
    exact ToolkitTable.code?_eq_some_iff.2 hmem
  · intro d hd
    obtain ⟨key, hkey, hname⟩ := Resolver.exists_key_of_diagnostic h hd
    rw [← hname, ToolkitTable.code?_eq_some_iff.2 hkey]
    rfl
  · intro name e
    exact DecisionTable.find?_eq_some_iff (Resolver.entries_ascending h)

/-- A resolver that leaves `No` out and takes `Meta` for `a`. -/
def mixedResolver : Resolver where
  primary := PrimaryTable.mixedTable
  vendor := .empty
  overrides := (Overrides.empty.extend ⟨.ofList [("Meta", "a")], .empty, ["No"]⟩).1

/-- Keys of all classes, in no order. -/
def mixedKeys : ToolkitTable :=
  .ofPairs [("No", 0x01), ("Nil", 0x02), ("Meta", 0x01000022), ("A", 0x41)]

/-- `A` and `Meta` are resolved, the latter without a partner, `Nil` is not, and `No` is ignored. -/
def mixedDecisions : DecisionTable where
  textCases := .ofList [(0x61, ⟨0x61⟩)]
  entries := #[⟨"A", 0x41, .shift ⟨0x61⟩ ⟨0x63⟩⟩, ⟨"Meta", 0x01000022, .fixed ⟨0x61⟩⟩]
  diagnostics := [.noMatch "Nil", .swapPartnerUnresolved "Meta" "Control"]

theorem resolve_mixedKeys : (mixedResolver.resolve mixedKeys).outcome = .ok mixedDecisions := by
  decide +kernel

theorem resolve_accountsFor_mixedKeys :
    (mixedResolver.resolve mixedKeys).outcome = .ok mixedDecisions ∧
      mixedDecisions.AccountsFor mixedResolver.overrides mixedKeys ∧
      mixedDecisions.find? "Meta" = some ⟨"Meta", 0x01000022, .fixed ⟨0x61⟩⟩ := by
  have h := resolve_accountsFor resolve_mixedKeys
  refine ⟨resolve_mixedKeys, h, (h.find?_eq_some _ _).2 ⟨?_, rfl⟩⟩
  simp [mixedDecisions]

end KeyDispatch
