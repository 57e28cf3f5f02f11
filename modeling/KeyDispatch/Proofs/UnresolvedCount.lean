import KeyDispatch.Proofs.KeyIndependence
import KeyDispatch.Proofs.RunReports

/-!
# The number of unresolved keys

Every key of a toolkit table is ignored, resolved or unresolved, so the numbers of the three classes
add up. What a run reports as the number of unresolved keys, and fails by, is the number of all
diagnostics: one more than the unresolved keys if exactly one member of the pair that trades places
has an entry (`run_reportsUnresolved`).
-/

namespace KeyDispatch

/-- The class that the outcome of a key puts it in. -/
def KeyOutcome.toClass : KeyOutcome → KeyClass
  | .ignored => .ignored
  | .unresolved _ => .unresolved
  | .resolved _ => .resolved

namespace DecisionTable

/-- The class of a key in a table: it is ignored, or it has an entry or none. -/
def classOf (t : DecisionTable) (overrides : Overrides) (key : String × UInt32) : KeyClass :=
  if overrides.isIgnored key.1 then .ignored
  else if (t.entriesOf key.1).isEmpty then .unresolved else .resolved

/-- The number of keys in a class. -/
def count (t : DecisionTable) (overrides : Overrides) (toolkit : ToolkitTable) (c : KeyClass) :
    Nat := (toolkit.toList.map (t.classOf overrides)).count c

/-- Exactly one member of the pair has an entry. -/
def hasLoneMember (t : DecisionTable) (swap : PlatformSwap) : Bool :=
  (t.entriesOf swap.first).isEmpty != (t.entriesOf swap.second).isEmpty

/-- The number that a run reports as that of unresolved keys: a member of the pair that is alone is
counted too, although it has an entry. -/
def reportedUnresolved (t : DecisionTable) (overrides : Overrides) (toolkit : ToolkitTable) : Nat :=
  t.count overrides toolkit .unresolved + (t.hasLoneMember overrides.swap).toNat

end DecisionTable

/-- Every class is one of the three. -/
theorem count_classes (classes : List KeyClass) :
    classes.count .resolved + classes.count .ignored + classes.count .unresolved =
      classes.length := by
  induction classes with
  | nil => rfl
  | cons c classes ih =>
    cases c <;> simp <;> omega

/-- The keys of a table are ignored, resolved or unresolved, and none is two of these. -/
theorem DecisionTable.count_add (t : DecisionTable) (overrides : Overrides)
    (toolkit : ToolkitTable) :
    t.count overrides toolkit .resolved + t.count overrides toolkit .ignored +
      t.count overrides toolkit .unresolved = toolkit.size := by
  rw [count, count, count, count_classes, List.length_map]
  rfl

/-- What is reported is the number of the unresolved keys if no member of the pair is alone. -/
theorem DecisionTable.reportedUnresolved_eq_iff (t : DecisionTable) (overrides : Overrides)
    (toolkit : ToolkitTable) :
    t.reportedUnresolved overrides toolkit = t.count overrides toolkit .unresolved ↔
      t.hasLoneMember overrides.swap = false := by
  rw [reportedUnresolved]
  cases t.hasLoneMember overrides.swap <;> simp

namespace Resolver

variable {r : Resolver} {toolkit : ToolkitTable} {table : DecisionTable}

/-- A key is in the class that its outcome says. -/
theorem classOf_of_outcome? (h : (r.resolve toolkit).outcome = .ok table) {key : String × UInt32}
    (hkey : key ∈ toolkit.toList) {outcome : KeyOutcome} (ho : r.outcome? key = some outcome) :
    table.classOf r.overrides key = outcome.toClass := by
  have hentries := map_key_entriesOf h hkey
  have hentry : r.entryFor? key = outcome.entryOf? := by rw [entryFor?, ho]; rfl
  rw [hentry] at hentries
  unfold DecisionTable.classOf
  cases settles_of_resolveKey (outcome?_eq_some_iff.1 ho) with
  | ignored hignored =>
    rw [if_pos hignored]
    rfl
  | unresolved hignored hd =>
    have hnil : table.entriesOf key.1 = [] := List.map_eq_nil_iff.1 hentries
    rw [hignored, hnil]
    rfl
  | resolved hignored hswap =>
    obtain ⟨e, hlist, -⟩ := List.map_eq_singleton_iff.1 hentries
    rw [hignored, hlist]
    rfl

theorem map_classOf (h : (r.resolve toolkit).outcome = .ok table) {outcomes : List KeyOutcome}
    (hkeys : (r.resolveKeys toolkit.toList).outcome = .ok outcomes) :
    toolkit.toList.map (table.classOf r.overrides) = outcomes.map KeyOutcome.toClass := by
  apply List.map_injective_iff.2 (Option.some_injective KeyClass)
  calc (toolkit.toList.map (table.classOf r.overrides)).map some
    _ = toolkit.toList.map fun key => (r.outcome? key).map KeyOutcome.toClass := by
      rw [List.map_map]
      refine List.map_congr_left fun key hkey => ?_
      obtain ⟨outcome, ho, -⟩ := exists_settles_of_resolve h hkey
      rw [ho, Function.comp_apply, classOf_of_outcome? h hkey ho]
      rfl
    _ = (outcomes.map some).map (Option.map KeyOutcome.toClass) := by
      rw [← resolveKeys_outcome_eq_ok_iff.1 hkeys, List.map_map]
      rfl
    _ = (outcomes.map KeyOutcome.toClass).map some := by
      rw [List.map_map, List.map_map]
      rfl

/-- How many of the keys' outcomes are of each kind. -/
theorem count_toClass (outcomes : List KeyOutcome) :
    (outcomes.map KeyOutcome.toClass).count .ignored = outcomes.countP KeyOutcome.isIgnored ∧
      (outcomes.map KeyOutcome.toClass).count .resolved =
        (outcomes.filterMap KeyOutcome.entryOf?).length ∧
      (outcomes.map KeyOutcome.toClass).count .unresolved =
        (outcomes.filterMap KeyOutcome.diagnosticOf?).length := by
  simp only [List.count_eq_countP, List.countP_map, List.length_filterMap_eq_countP]
  refine ⟨?_, ?_, ?_⟩
  · congr 1
    funext outcome
    cases outcome <;> rfl
  · congr 1
    funext outcome
    cases outcome <;> rfl
  · congr 1
    funext outcome
    cases outcome <;> rfl

/-- The exchange says something if one member of the pair is alone. -/
theorem length_unswapped (h : (r.resolve toolkit).outcome = .ok table) :
    table.unswapped.length = (table.hasLoneMember r.overrides.swap).toNat := by
  have hempty : ∀ name, (table.entriesOf name).isEmpty = (r.own? toolkit name).isNone := by
    intro name
    have hown : (r.own? toolkit name).isNone = (r.ownEntryFor? toolkit name).isNone := by
      rw [own?, Option.isNone_map]
    rw [entriesOf_of_resolve h, hown]
    cases r.ownEntryFor? toolkit name <;> rfl
  rw [unswapped_of_resolve h, DecisionTable.hasLoneMember, hempty, hempty]
  cases r.own? toolkit r.overrides.swap.first <;>
    cases r.own? toolkit r.overrides.swap.second <;> rfl

/-- What a table has of each kind: as many entries as keys are resolved, and a diagnostic for each
unresolved key and for a member of the pair that is alone. -/
theorem of_resolveKeys (h : (r.resolve toolkit).outcome = .ok table) {outcomes : List KeyOutcome}
    (hkeys : (r.resolveKeys toolkit.toList).outcome = .ok outcomes) :
    outcomes.countP KeyOutcome.isIgnored = table.count r.overrides toolkit .ignored ∧
      table.entries.size = table.count r.overrides toolkit .resolved ∧
      table.diagnostics.length = table.reportedUnresolved r.overrides toolkit := by
  obtain ⟨hignored, hresolved, hunresolved⟩ := count_toClass outcomes
  rw [← map_classOf h hkeys] at hignored hresolved hunresolved
  refine ⟨hignored.symm, ?_, ?_⟩
  · obtain ⟨exchanged, hexchanged, rfl⟩ := exists_exchanged_of_resolve h
    have hlength := congrArg List.length hexchanged.map_key
    rw [List.length_map, List.length_map] at hlength
    rw [DecisionTable.count, hresolved, filterMap_of_resolveKeys hkeys, List.size_toArray, hlength]
    rfl
  · rw [diagnostics_of_resolve h, List.length_append, length_unswapped h,
      DecisionTable.reportedUnresolved, DecisionTable.count, hunresolved,
      filterMap_of_resolveKeys hkeys]
    rfl

end Resolver

/-- The events are the summary of the resolver, followed by `rest`. The numbers of the table's keys
add up, but what is reported of them is right, and adds up, only if no member of the pair is
alone. -/
structure DecisionTable.ReportedBy (t : DecisionTable) (overrides : Overrides)
    (toolkit : ToolkitTable) (events rest : List Event) : Prop where
  total_eq : t.entries.size + t.count overrides toolkit .ignored +
    t.count overrides toolkit .unresolved = toolkit.size
  reported_eq_iff : t.reportedUnresolved overrides toolkit =
    t.count overrides toolkit .unresolved ↔ t.hasLoneMember overrides.swap = false
  reported_total_iff : t.entries.size + t.count overrides toolkit .ignored +
    t.reportedUnresolved overrides toolkit = toolkit.size ↔ t.hasLoneMember overrides.swap = false
  events_eq : events = .resolverSummary t.entries.size toolkit.size
    (t.count overrides toolkit .ignored) (t.reportedUnresolved overrides toolkit)
    t.textCases.size :: rest

/-- A resolver reports the numbers of its table. -/
theorem Resolver.reportedBy_of_resolve {r : Resolver} {toolkit : ToolkitTable} {table : DecisionTable}
    (h : (r.resolve toolkit).outcome = .ok table) :
    table.ReportedBy r.overrides toolkit (r.resolve toolkit).accounts [] := by
  obtain ⟨outcomes, hkeys, htable⟩ := resolve_outcome_eq_ok_iff.1 h
  obtain ⟨hignored, hresolved, hdiagnostics⟩ := of_resolveKeys h hkeys
  have htotal := table.count_add r.overrides toolkit
  rw [← hresolved] at htotal
  have hreported := table.reportedUnresolved_eq_iff r.overrides toolkit
  refine ⟨htotal, hreported, ?_, ?_⟩
  · rw [← hreported]
    omega
  · rw [accounts_resolve hkeys, htable, hignored, hdiagnostics]

/-- What the resolver reports as the number of unresolved keys, what a run reports as that number, and
the number by which a run fails that is to deny unresolved keys, are one and the same: that of the
keys that are not ignored and have no entry, and one more if a member of the pair that trades places
is alone. Such a run fails even if every key has an entry. -/
theorem run_reportsUnresolved {sources : SourceTexts} {overrides : Overrides} {table : DecisionTable}
    (h : (buildTable sources overrides).outcome = .ok table) :
    ∃ toolkit, (ToolkitTable.ofText sources.toolkit).outcome = .ok toolkit ∧
      table.ReportedBy overrides toolkit (buildTable sources overrides).accounts [] ∧
      ∀ env args g file paths generated, Generates env args g file paths sources generated →
        runOverrides file = overrides →
          table.ReportedBy overrides toolkit (runAccounts env args g)
            [.generated table.entries.size table.textCases.size
              (table.reportedUnresolved overrides toolkit)] ∧
          ∀ n, runOutcome env args g = .error (.unresolvedKeys n) ↔
            args.denyUnresolved = true ∧ n = table.reportedUnresolved overrides toolkit ∧
              n ≠ 0 := by
  obtain ⟨primary, hprimary, vendor, hvendor, toolkit, htoolkit, hresolve⟩ :=
    buildTable_outcome_eq_ok_iff.1 h
  have hreported := Resolver.reportedBy_of_resolve hresolve
  rw [← accounts_buildTable hprimary hvendor htoolkit] at hreported
  obtain ⟨outcomes, hkeys, -⟩ := Resolver.resolve_outcome_eq_ok_iff.1 hresolve
  obtain ⟨-, -, hdiagnostics⟩ := Resolver.of_resolveKeys hresolve hkeys
  refine ⟨toolkit, htoolkit, hreported, ?_⟩
  intro env args g file paths generated hgenerates hfile
  subst hfile
  -- the table of the run is the one that its headers give
  have htable : generated.table = table := by
    have hproduced := hgenerates.produced
    rw [generate_outcome_of_buildTable h] at hproduced
    rw [← Except.ok.inj hproduced]
  refine ⟨⟨hreported.total_eq, hreported.reported_eq_iff, hreported.reported_total_iff, ?_⟩,
    fun n => ?_⟩
  · rw [hgenerates.runAccounts_eq, hreported.events_eq, htable, summary, hdiagnostics]
    rfl
  · rw [hgenerates.runOutcome_eq_unresolvedKeys_iff, htable, hdiagnostics]

/-- Headers that list `Control` alone, which has a keysym. -/
def loneHeaders : SourceTexts where
  keysymdef := "#define XK_Control_L 0xffe3\n"
  vendor := ""
  toolkit := "    Key_Control = 0x01000021,\n"

/-- The table of them: no key is unresolved, but `Control` is without its partner. -/
def loneTable : DecisionTable where
  textCases := .empty
  entries := #[⟨"Control", 0x01000021, .fixed ⟨0xffe3⟩⟩]
  diagnostics := [.swapPartnerUnresolved "Control" "Meta"]

/-- The dispatch generated from them. -/
def loneGenerated : Generated :=
  ⟨loneTable, Artifact.render (.rustModule RustModule.standard) loneTable⟩

/-- A run that is to deny unresolved keys. -/
def denyArguments : Arguments := { toolkitArguments with denyUnresolved := true }

theorem buildTable_loneHeaders :
    (buildTable loneHeaders Overrides.builtin).outcome = .ok loneTable := by
  decide +kernel

theorem runOverrides_default : runOverrides Config.default = Overrides.builtin :=
  Config.default.overrides_fst.symm

theorem generates_loneHeaders :
    Generates bareEnvironment denyArguments (headerDisk loneHeaders) Config.default
      ⟨"keysymdef.h", "XF86keysym.h", "qnamespace.h"⟩ loneHeaders loneGenerated where
  config := .unset rfl nofun
  located
    | .keysymdef => .usual rfl
    | .vendor => .usual rfl
    | .toolkit => .chosen rfl
  read := readText_headerDisk loneHeaders
  produced := by
    rw [runOverrides_default]
    exact generate_outcome_of_buildTable buildTable_loneHeaders _

theorem run_reportsUnresolved_loneHeaders :
    (buildTable loneHeaders Overrides.builtin).outcome = .ok loneTable ∧
      Generates bareEnvironment denyArguments (headerDisk loneHeaders) Config.default
        ⟨"keysymdef.h", "XF86keysym.h", "qnamespace.h"⟩ loneHeaders loneGenerated ∧
      ∃ toolkit, (ToolkitTable.ofText loneHeaders.toolkit).outcome = .ok toolkit ∧
        loneTable.ReportedBy Overrides.builtin toolkit
          (buildTable loneHeaders Overrides.builtin).accounts [] ∧
        loneTable.ReportedBy Overrides.builtin toolkit
          (runAccounts bareEnvironment denyArguments (headerDisk loneHeaders))
          [.generated 1 0 (loneTable.reportedUnresolved Overrides.builtin toolkit)] ∧
        ∀ n, runOutcome bareEnvironment denyArguments (headerDisk loneHeaders) =
            .error (.unresolvedKeys n) ↔
          denyArguments.denyUnresolved = true ∧
            n = loneTable.reportedUnresolved Overrides.builtin toolkit ∧ n ≠ 0 := by
  obtain ⟨toolkit, htoolkit, hreported, hrun⟩ := run_reportsUnresolved buildTable_loneHeaders
  obtain ⟨haccounts, houtcome⟩ :=
    hrun _ _ _ _ _ _ generates_loneHeaders runOverrides_default
  exact ⟨buildTable_loneHeaders, generates_loneHeaders, toolkit, htoolkit, hreported, haccounts,
    houtcome⟩

/-- The only key has an entry, but the run reports one unresolved key and fails by it. -/
theorem runOutcome_loneHeaders :
    (ToolkitTable.ofText loneHeaders.toolkit).outcome = .ok (.ofPairs [("Control", 0x01000021)]) ∧
      (buildTable loneHeaders (runOverrides Config.default)).outcome = .ok loneTable ∧
      loneTable.count (runOverrides Config.default) (.ofPairs [("Control", 0x01000021)])
        .unresolved = 0 ∧
      runAccounts bareEnvironment denyArguments (headerDisk loneHeaders) =
        [.resolverSummary 1 1 0 1 0, .generated 1 0 1] ∧
      runOutcome bareEnvironment denyArguments (headerDisk loneHeaders) =
        .error (.unresolvedKeys 1) := by
  refine ⟨by decide +kernel, ?_, ?_, ?_, ?_⟩
  · rw [runOverrides_default]
    exact buildTable_loneHeaders
  · decide +kernel
  · have haccounts : (buildTable loneHeaders Overrides.builtin).accounts =
        [.resolverSummary 1 1 0 1 0] := by
      decide +kernel
    rw [generates_loneHeaders.runAccounts_eq, runOverrides_default, haccounts]
    rfl
  · exact generates_loneHeaders.runOutcome_eq_unresolvedKeys_iff.2 ⟨rfl, rfl, by decide⟩

end KeyDispatch
