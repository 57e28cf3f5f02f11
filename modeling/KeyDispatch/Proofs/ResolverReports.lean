import KeyDispatch.Proofs.KeypadFailure
import KeyDispatch.Proofs.PlatformExchange
import KeyDispatch.Proofs.ReportTexts

/-!
# What the resolver reports

The reports of the resolver on a key follow from what becomes of the key by itself (`reports`,
`events_resolveKey`). Those on all keys are the reports on one key after another, up to the first
key that cannot be resolved (`events_resolveKeys_of_ok`, `events_resolveKeys_of_error`). So the
warnings and the traces of a resolution can be read off its table, if it has one: the warnings are
the diagnostics, with one more for each keypad keysym that is left aside, and there is one trace for
each entry, with its resolution before the exchange. The texts of these reports say the same
(`resolve_reports`).
-/

namespace KeyDispatch

open Text (Precedes)

/-- The event says that a keypad keysym is left aside. -/
def Event.isKeypadWarning : Event → Bool
  | .keypadNotApplied _ _ => true
  | _ => false

/-- The event has the level. -/
def Event.hasLevel (level : Level) (e : Event) : Bool := decide (e.level = level)

/-- The event is a warning, but not on a keypad keysym. -/
def Event.isOtherWarning (e : Event) : Bool := e.hasLevel .warn && !e.isKeypadWarning

/-- Which of the resolver's reports a predicate selects: diagnostics, keypad keysyms that are left
aside, and traces of entries. It does not select the report on the whole. -/
structure Event.Selects (p : Event → Bool) (diagnosed keypad traced : Bool) : Prop where
  diagnosed_eq : ∀ d, p (.diagnosed d) = diagnosed
  keypad_eq : ∀ key symbol, p (.keypadNotApplied key symbol) = keypad
  traced_eq : ∀ key resolution, p (.resolved key resolution) = traced
  summary_eq : ∀ mapped keys ignored unresolved text,
    p (.resolverSummary mapped keys ignored unresolved text) = false

theorem Event.selects_isOtherWarning : Selects isOtherWarning true false false :=
  ⟨fun _ => rfl, fun _ _ => rfl, fun _ _ => rfl, fun _ _ _ _ _ => rfl⟩

theorem Event.selects_isKeypadWarning : Selects isKeypadWarning false true false :=
  ⟨fun _ => rfl, fun _ _ => rfl, fun _ _ => rfl, fun _ _ _ _ _ => rfl⟩

theorem Event.selects_warn : Selects (hasLevel .warn) true true false :=
  ⟨fun _ => rfl, fun _ _ => rfl, fun _ _ => rfl, fun _ _ _ _ _ => rfl⟩

theorem Event.selects_trace : Selects (hasLevel .trace) false false true :=
  ⟨fun _ => rfl, fun _ _ => rfl, fun _ _ => rfl, fun _ _ _ _ _ => rfl⟩

/-- The key that a report of the resolver is about. -/
def Event.key? : Event → Option String
  | .diagnosed diagnostic => some diagnostic.key
  | .keypadNotApplied key _ => some key
  | .resolved key _ => some key
  | _ => none

/-- The key that cannot be resolved. -/
def ResolveError.key : ResolveError → String
  | .caseIndexInconsistent key => key
  | .unknownKeypadSymbol key _ => key

/-- The resolution without the exchange. -/
def Resolution.beforeExchange : Resolution → Resolution
  | .swapped normal _ _ => normal
  | resolution => resolution

/-- The entry with its resolution before the exchange. -/
def Entry.beforeExchange (e : Entry) : Entry :=
  { e with resolution := e.resolution.beforeExchange }

theorem Entry.beforeExchange_eq_self {e : Entry} (h : e.resolution.isSwapped = false) :
    e.beforeExchange = e := by
  obtain ⟨name, code, resolution⟩ := e
  cases resolution with
  | fixed keysym => rfl
  | shift lower upper => rfl
  | keypad plain onKeypad => rfl
  | swapped normal exchanged platform => cases h

/-- The keypad keysym that is left aside, because the keysym of the key depends on Shift. -/
def Overrides.leftAside? (o : Overrides) (e : Entry) : Option String :=
  match e.resolution with
  | .shift _ _ => o.keypad? e.name
  | _ => none

/-- The warning on the keypad keysym of a key whose keysym depends on Shift. -/
def Overrides.keypadWarning? (o : Overrides) (e : Entry) : Option Event :=
  match e.resolution with
  | .shift _ _ => (o.keypad? e.name).map (.keypadNotApplied e.name)
  | _ => none

/-- The reports on an entry. -/
def Overrides.entryReports (o : Overrides) (e : Entry) : List Event :=
  (o.keypadWarning? e).toList ++ [.resolved e.name e.resolution]

/-- A filter keeps all of a list whose members it does not tell apart, or nothing. -/
theorem filter_eq_ite {α : Type} {p : α → Bool} {kept : Bool} {l : List α}
    (h : ∀ x ∈ l, p x = kept) : l.filter p = if kept then l else [] := by
  cases kept with
  | true => exact List.filter_eq_self.2 h
  | false => exact List.filter_eq_nil_iff.2 fun x hx => Bool.eq_false_iff.1 (h x hx)

section EntryReports

variable {o : Overrides} {e : Entry}

theorem Overrides.keypadWarning?_eq_some {x : Event} (h : o.keypadWarning? e = some x) :
    ∃ symbol, x = .keypadNotApplied e.name symbol := by
  unfold keypadWarning? at h
  split at h
  · obtain ⟨symbol, -, rfl⟩ := Option.map_eq_some_iff.1 h
    exact ⟨symbol, rfl⟩
  · cases h

/-- The warning names the key and the keypad keysym that is left aside. -/
theorem Overrides.text_keypadWarning? :
    (o.keypadWarning? e).map Event.text = (o.leftAside? e).map fun symbol =>
      "Qt key " ++ e.name ++ " maps to a shift-dependent keysym, keypad keysym XK_" ++ symbol
        ++ " not applied" := by
  unfold keypadWarning? leftAside?
  cases e.resolution with
  | shift lower upper =>
    dsimp only
    rw [Option.map_map]
    rfl
  | _ => rfl

/-- The reports on an entry that a predicate selects. -/
theorem Overrides.filter_entryReports {p : Event → Bool} {diagnosed keypad traced : Bool}
    (hp : Event.Selects p diagnosed keypad traced) :
    (o.entryReports e).filter p = (if keypad then (o.keypadWarning? e).toList else []) ++
      if traced then [.resolved e.name e.resolution] else [] := by
  have hkeypad : ∀ x ∈ (o.keypadWarning? e).toList, p x = keypad := by
    intro x hx
    obtain ⟨symbol, rfl⟩ := Overrides.keypadWarning?_eq_some (Option.mem_toList.1 hx)
    exact hp.keypad_eq _ _
  have htraced : ∀ x ∈ [Event.resolved e.name e.resolution], p x = traced :=
    List.forall_mem_singleton.2 (hp.traced_eq _ _)
  rw [entryReports, List.filter_append, filter_eq_ite hkeypad, filter_eq_ite htraced]

end EntryReports

namespace Resolver

variable {r : Resolver}

/-! ## Reports on keys -/

/-- The reports on a key: on its diagnostic, or on its entry. -/
def reports (r : Resolver) (key : String × UInt32) : List Event :=
  ((r.diagnostic? key).map .diagnosed).toList ++
    (r.entryFor? key).toList.flatMap r.overrides.entryReports

/-- A keypad keysym is reported if Shift decides on the key already. -/
theorem events_applyKeypad_of_ok {name : String} {base resolution : Resolution}
    (hbase : base.IsBase) (h : (r.applyKeypad name base).outcome = .ok resolution) (code : UInt32) :
    (r.applyKeypad name base).events =
      (r.overrides.keypadWarning? ⟨name, code, resolution⟩).toList := by
  cases r.keypadCase name base with
  | kept hnone heq =>
    rw [heq] at h ⊢
    obtain rfl := Except.ok.inj h
    cases hbase with
    | fixed plain => rfl
    | shift lower upper => simp [Overrides.keypadWarning?, hnone, pure]
  | unknown hname hcode heq =>
    rw [heq] at h
    cases h
  | added hname hcode hfixed heq =>
    rw [heq] at h ⊢
    obtain rfl := Except.ok.inj h
    rfl
  | leftAside hname hcode hne heq =>
    rw [heq] at h ⊢
    obtain rfl := Except.ok.inj h
    cases hbase with
    | fixed plain => exact absurd rfl (hne plain)
    | shift lower upper => simp [Overrides.keypadWarning?, hname]

/-- The reports on a key follow from what becomes of it. A key that cannot be resolved has none. -/
theorem events_resolveKey (key : String × UInt32) : (r.resolveKey key).events = r.reports key := by
  unfold reports diagnostic? entryFor? outcome?
  cases r.keyCase key with
  | ignored hignored heq => rw [heq]; rfl
  | unresolved hignored hd heq => rw [heq]; rfl
  | inconsistent hignored heq => rw [heq]; rfl
  | unknownKeypad hignored hrule hname hcode heq => rw [heq]; rfl
  | resolved hignored hrule hkeypad heq =>
    rw [heq, events_applyKeypad_of_ok hrule.isBase hkeypad key.2]
    exact (List.append_nil _).symm

section Filters

variable (r) (key : String × UInt32)

/-- The reports on a key that a predicate selects. -/
theorem filter_reports {p : Event → Bool} {diagnosed keypad traced : Bool}
    (hp : Event.Selects p diagnosed keypad traced) :
    (r.reports key).filter p =
      (if diagnosed then ((r.diagnostic? key).map .diagnosed).toList else []) ++
        (r.entryFor? key).toList.flatMap fun e =>
          (if keypad then (r.overrides.keypadWarning? e).toList else []) ++
            if traced then [.resolved e.name e.resolution] else [] := by
  have hdiagnosed : ∀ x ∈ ((r.diagnostic? key).map Event.diagnosed).toList, p x = diagnosed := by
    intro x hx
    obtain ⟨d, -, rfl⟩ := Option.map_eq_some_iff.1 (Option.mem_toList.1 hx)
    exact hp.diagnosed_eq d
  rw [reports, List.filter_append, List.filter_flatMap, filter_eq_ite hdiagnosed]
  simp only [Overrides.filter_entryReports hp]

theorem filter_reports_isOtherWarning :
    (r.reports key).filter Event.isOtherWarning = ((r.diagnostic? key).map .diagnosed).toList := by
  rw [r.filter_reports key Event.selects_isOtherWarning]
  cases r.entryFor? key <;> simp

theorem filter_reports_isKeypadWarning :
    (r.reports key).filter Event.isKeypadWarning =
      ((r.entryFor? key).bind r.overrides.keypadWarning?).toList := by
  rw [r.filter_reports key Event.selects_isKeypadWarning]
  cases r.entryFor? key <;> simp

/-- The warning on a key, if there is one. -/
def warning? (r : Resolver) (key : String × UInt32) : Option Event :=
  ((r.diagnostic? key).map .diagnosed).or ((r.entryFor? key).bind r.overrides.keypadWarning?)

theorem filter_reports_warn :
    (r.reports key).filter (Event.hasLevel .warn) = (r.warning? key).toList := by
  rw [r.filter_reports key Event.selects_warn, warning?, diagnostic?, entryFor?]
  -- a key with a diagnostic has no entry
  cases r.outcome? key with
  | none => rfl
  | some outcome => cases outcome <;> simp [KeyOutcome.entryOf?, KeyOutcome.diagnosticOf?]

theorem filter_reports_trace :
    (r.reports key).filter (Event.hasLevel .trace) =
      ((r.entryFor? key).map fun e => .resolved e.name e.resolution).toList := by
  rw [r.filter_reports key Event.selects_trace]
  cases r.entryFor? key <;> simp

end Filters

theorem key?_of_warning? {key : String × UInt32} {e : Event} (h : r.warning? key = some e) :
    e.key? = some key.1 := by
  rcases Option.or_eq_some_iff.1 h with h | ⟨-, h⟩
  · obtain ⟨d, hd, rfl⟩ := Option.map_eq_some_iff.1 h
    exact congrArg some (key_of_diagnostic? hd)
  · obtain ⟨entry, hentry, h⟩ := Option.bind_eq_some_iff.1 h
    obtain ⟨symbol, rfl⟩ := Overrides.keypadWarning?_eq_some h
    exact congrArg some (name_of_entryFor? hentry)

/-! ## Reports on several keys -/

/-- Keys that resolve are reported on one after another, by induction on the keys. -/
theorem events_resolveKeys_of_ok {keys : List (String × UInt32)} {outcomes : List KeyOutcome}
    (h : (r.resolveKeys keys).outcome = .ok outcomes) :
    (r.resolveKeys keys).events = keys.flatMap r.reports := by
  induction keys generalizing outcomes with
  | nil => rfl
  | cons key keys ih =>
    rw [resolveKeys] at h ⊢
    obtain ⟨outcome, hkey, h⟩ := Logged.outcome_bind_eq_ok_iff.1 h
    obtain ⟨rest, hrest, -⟩ := Logged.outcome_bind_eq_ok_iff.1 h
    rw [Logged.bind_ok hkey, Logged.bind_ok hrest, events_resolveKey, ih hrest,
      List.flatMap_cons]
    exact congrArg _ (List.append_nil _)

theorem reports_of_error {key : String × UInt32} {e : ResolveError}
    (h : (r.resolveKey key).outcome = .error e) : r.reports key = [] := by
  have hnone : r.outcome? key = none := by
    rw [outcome?, h]
    rfl
  rw [reports, diagnostic?, entryFor?, hnone]
  rfl

/-- Up to a key that does not resolve, the keys are reported on one after another, by induction on
the keys before it. -/
theorem events_resolveKeys_of_error {before after : List (String × UInt32)} {key : String × UInt32}
    {e : ResolveError}
    (hbefore : ∀ earlier ∈ before, ∃ outcome, (r.resolveKey earlier).outcome = .ok outcome)
    (hkey : (r.resolveKey key).outcome = .error e) :
    (r.resolveKeys (before ++ key :: after)).events = before.flatMap r.reports := by
  induction before with
  | nil =>
    rw [List.nil_append, resolveKeys, Logged.bind_error hkey, events_resolveKey,
      reports_of_error hkey, List.flatMap_nil]
  | cons first before ih =>
    obtain ⟨⟨outcome, hfirst⟩, hrest⟩ := List.forall_mem_cons.1 hbefore
    have herror : (r.resolveKeys (before ++ key :: after)).outcome = .error e :=
      resolveKeys_outcome_eq_error_iff.2 ⟨before, key, after, rfl, hrest, hkey⟩
    rw [List.cons_append, resolveKeys, Logged.bind_ok hfirst, Logged.bind_error herror,
      events_resolveKey, ih hrest, List.flatMap_cons]

/-- A key that does not resolve is named by the error. -/
theorem key_of_resolveKey_error {key : String × UInt32} {e : ResolveError}
    (h : (r.resolveKey key).outcome = .error e) : e.key = key.1 := by
  cases r.keyCase key with
  | ignored hignored heq =>
    rw [heq] at h
    cases h
  | unresolved hignored hd heq =>
    rw [heq] at h
    cases h
  | inconsistent hignored heq =>
    rw [heq] at h
    obtain rfl := Except.error.inj h
    rfl
  | unknownKeypad hignored hrule hname hcode heq =>
    rw [heq] at h
    obtain rfl := Except.error.inj h
    rfl
  | resolved hignored hrule hkeypad heq =>
    rw [heq] at h
    cases h

/-! ## Reports and the table -/

section Table

variable {toolkit : ToolkitTable} {table : DecisionTable}

theorem names_ne_of_filterMap_entryFor? (r : Resolver) (toolkit : ToolkitTable) :
    (toolkit.toList.filterMap r.entryFor?).Pairwise fun a b => a.name ≠ b.name :=
  (toolkit.keys.map_filterMap_toList_pairwise fun _ _ he =>
    name_of_entryFor? he).imp fun hlt => hlt.ne

/-- Without the exchange, the entries of a table are those of the keys by themselves. -/
theorem map_beforeExchange_of_resolve (h : (r.resolve toolkit).outcome = .ok table) :
    table.entries.toList.map Entry.beforeExchange = toolkit.toList.filterMap r.entryFor? := by
  obtain ⟨exchanged, hexchanged, rfl⟩ := exists_exchanged_of_resolve h
  rw [List.toList_toArray]
  have hne := r.names_ne_of_filterMap_entryFor? toolkit
  have hplain : ∀ e ∈ toolkit.toList.filterMap r.entryFor?, e.beforeExchange = e := by
    intro e he
    obtain ⟨key, -, hkey⟩ := List.mem_filterMap.1 he
    exact Entry.beforeExchange_eq_self (of_entryFor?_eq_some hkey).2.1
  cases hexchanged with
  | both ha hb =>
    rw [List.map_map]
    refine (List.map_congr_left fun e he => ?_).trans (List.map_id _)
    rw [Function.comp_apply, exchangeIn]
    split
    · next hname =>
      obtain rfl := Option.some.inj (ha.symm.trans ((find?_name_eq_some_iff hne).2 ⟨he, hname⟩))
      rfl
    · split
      · next hname =>
        obtain rfl := Option.some.inj (hb.symm.trans ((find?_name_eq_some_iff hne).2 ⟨he, hname⟩))
        rfl
      · exact hplain e he
  | onlyFirst ha hb => exact (List.map_congr_left hplain).trans (List.map_id _)
  | onlySecond ha hb => exact (List.map_congr_left hplain).trans (List.map_id _)
  | neither ha hb => exact (List.map_congr_left hplain).trans (List.map_id _)

/-- A resolution reports on the keys, on the exchange and on the whole, in this order. -/
theorem exists_events_resolve_eq (h : (r.resolve toolkit).outcome = .ok table) :
    ∃ ignored, (r.resolve toolkit).events =
      toolkit.toList.flatMap r.reports ++ table.unswapped.map .diagnosed ++
        [.resolverSummary table.entries.size toolkit.size ignored table.diagnostics.length
          table.textCases.size] := by
  obtain ⟨outcomes, hkeys, rfl⟩ := resolve_outcome_eq_ok_iff.1 h
  have hexchanged := exchanged_exchange r.overrides.swap (outcomes.filterMap (·.entryOf?))
  have hunswapped : (r.tableOf outcomes).unswapped =
      (exchange r.overrides.swap (outcomes.filterMap (·.entryOf?))).2.toList := by
    have hdiagnostics := filterMap_of_resolveKeys hkeys KeyOutcome.diagnosticOf?
    rw [DecisionTable.unswapped, tableOf, hdiagnostics]
    exact filter_not_leavesOut_append hexchanged
  refine ⟨outcomes.countP (·.isIgnored), ?_⟩
  rw [hunswapped, resolve, Logged.bind_ok hkeys, events_resolveKeys_of_ok hkeys, List.append_assoc]
  rfl

/-- What stands among the reports on the keys of what stands among the reports on each. -/
theorem filter_flatMap_reports {p : Event → Bool} {f : String × UInt32 → Option Event}
    (hf : ∀ key, (r.reports key).filter p = (f key).toList) (keys : List (String × UInt32)) :
    (keys.flatMap r.reports).filter p = keys.filterMap f := by
  rw [List.filter_flatMap, List.filterMap_eq_flatMap_toList]
  simp only [hf]

/-- The reports that a predicate selects are those on the keys and, if it selects diagnostics, the
one on the exchange. -/
theorem filter_events_of_resolve (h : (r.resolve toolkit).outcome = .ok table) {p : Event → Bool}
    {diagnosed keypad traced : Bool} (hp : Event.Selects p diagnosed keypad traced)
    {f : String × UInt32 → Option Event} (hf : ∀ key, (r.reports key).filter p = (f key).toList) :
    (r.resolve toolkit).events.filter p = toolkit.toList.filterMap f ++
      if diagnosed then table.unswapped.map .diagnosed else [] := by
  obtain ⟨ignored, hevents⟩ := exists_events_resolve_eq h
  have hunswapped : ∀ x ∈ table.unswapped.map Event.diagnosed, p x = diagnosed :=
    List.forall_mem_map.2 fun d _ => hp.diagnosed_eq d
  have hsummary := hp.summary_eq table.entries.size toolkit.size ignored table.diagnostics.length
    table.textCases.size
  rw [hevents, List.filter_append, List.filter_append, filter_flatMap_reports hf,
    filter_eq_ite hunswapped, filter_eq_ite (List.forall_mem_singleton.2 hsummary),
    if_neg Bool.false_ne_true, List.append_nil]

/-- The warnings that are not on keypad keysyms are the diagnostics of the table. -/
theorem filter_isOtherWarning_of_resolve (h : (r.resolve toolkit).outcome = .ok table) :
    (r.resolve toolkit).events.filter Event.isOtherWarning = table.diagnostics.map .diagnosed := by
  rw [filter_events_of_resolve h Event.selects_isOtherWarning r.filter_reports_isOtherWarning,
    diagnostics_of_resolve h, List.map_append, List.map_filterMap, if_pos rfl]

/-- The warnings on keypad keysyms are those on the entries before the exchange. -/
theorem filter_isKeypadWarning_of_resolve (h : (r.resolve toolkit).outcome = .ok table) :
    (r.resolve toolkit).events.filter Event.isKeypadWarning =
      table.entries.toList.filterMap fun e => r.overrides.keypadWarning? e.beforeExchange := by
  have hentries := congrArg (List.filterMap r.overrides.keypadWarning?)
    (map_beforeExchange_of_resolve h)
  rw [List.filterMap_map, List.filterMap_filterMap] at hentries
  rw [filter_events_of_resolve h Event.selects_isKeypadWarning r.filter_reports_isKeypadWarning,
    if_neg Bool.false_ne_true, List.append_nil, ← hentries]
  rfl

/-- The traces are those of the entries before the exchange. -/
theorem filter_trace_of_resolve (h : (r.resolve toolkit).outcome = .ok table) :
    (r.resolve toolkit).events.filter (Event.hasLevel .trace) =
      table.entries.toList.map fun e => .resolved e.name e.resolution.beforeExchange := by
  have hentries := congrArg (List.map fun e => Event.resolved e.name e.resolution)
    (map_beforeExchange_of_resolve h)
  rw [List.map_map, List.map_filterMap] at hentries
  rw [filter_events_of_resolve h Event.selects_trace r.filter_reports_trace,
    if_neg Bool.false_ne_true, List.append_nil, ← hentries]
  rfl

/-- The warnings on keys stand in the order of the keys. -/
theorem warnings_ascending (r : Resolver) (toolkit : ToolkitTable) :
    (toolkit.toList.filterMap r.warning?).Pairwise fun a b =>
      ∃ j k, a.key? = some j ∧ b.key? = some k ∧ Precedes j k := by
  refine List.Pairwise.filterMap r.warning? ?_ toolkit.keys.ascending
  intro a b hab x hx y hy
  exact ⟨a.1, b.1, key?_of_warning? hx, key?_of_warning? hy, Text.compare_eq_lt_iff.1 hab⟩

/-- The resolution of an entry before the exchange is the one that its key has by itself. -/
theorem own?_eq_beforeExchange (h : (r.resolve toolkit).outcome = .ok table) {e : Entry}
    (he : e ∈ table.entries.toList) :
    r.own? toolkit e.name = some e.resolution.beforeExchange := by
  have hmem : e.beforeExchange ∈ toolkit.toList.filterMap r.entryFor? := by
    rw [← map_beforeExchange_of_resolve h]
    exact List.mem_map_of_mem he
  have hne := r.names_ne_of_filterMap_entryFor? toolkit
  have hfind : ((toolkit.toList.filterMap r.entryFor?).find? fun f => f.name == e.name) =
      some e.beforeExchange := (find?_name_eq_some_iff hne).2 ⟨hmem, rfl⟩
  rw [own?, ← find?_filterMap_entryFor?, hfind]
  rfl

end Table

end Resolver

/-- The reports on a resolution tell what its table says. -/
structure DecisionTable.ToldBy (t : DecisionTable) (overrides : Overrides) (events : List Event) :
    Prop where
  /-- The warnings that are not on keypad keysyms are the diagnostics, in order, and say the same. -/
  diagnostics : (events.filter Event.isOtherWarning) = t.diagnostics.map .diagnosed
  texts : (events.filter Event.isOtherWarning).map Event.text =
    t.diagnostics.map Diagnostic.message
  /-- The others are one for each entry that has a pair before the exchange and whose key has a
  keypad keysym. They name the key and the keysym. -/
  keypad : events.filter Event.isKeypadWarning =
    t.entries.toList.filterMap fun e => overrides.keypadWarning? e.beforeExchange
  keypadTexts : (events.filter Event.isKeypadWarning).map Event.text =
    t.entries.toList.filterMap fun e => (overrides.leftAside? e.beforeExchange).map fun symbol =>
      "Qt key " ++ e.name ++ " maps to a shift-dependent keysym, keypad keysym XK_" ++ symbol
        ++ " not applied"
  /-- All warnings on keys stand in the order of the keys, before that on the exchange. -/
  order : ∃ ofKeys, events.filter (Event.hasLevel .warn) = ofKeys ++ t.unswapped.map .diagnosed ∧
    ofKeys.Pairwise fun a b => ∃ j k, a.key? = some j ∧ b.key? = some k ∧ Precedes j k
  /-- The traces are of the entries, in order, before the exchange. They name the key and show the
  resolution. -/
  traces : events.filter (Event.hasLevel .trace) =
    t.entries.toList.map fun e => .resolved e.name e.resolution.beforeExchange
  traceTexts : (events.filter (Event.hasLevel .trace)).map Event.text =
    t.entries.toList.map fun e =>
      "Key_" ++ e.name ++ " -> " ++ e.resolution.beforeExchange.describe

/-- A resolution that succeeds warns and traces as its table says, where an entry has, before the
exchange, the resolution that its key has by itself. It reports on one key after another, on the
exchange and on the whole. A resolution that fails reports on the keys before the first one that
cannot be resolved, and on nothing else. The text of a trace tells the resolution that it shows, and
that of a warning the diagnostic. -/
theorem resolve_reports (r : Resolver) (toolkit : ToolkitTable) :
    (∀ table, (r.resolve toolkit).outcome = .ok table →
      table.ToldBy r.overrides (r.resolve toolkit).events ∧
      (∀ e ∈ table.entries.toList,
        r.own? toolkit e.name = some e.resolution.beforeExchange) ∧
      ∃ ignored, (r.resolve toolkit).events =
        toolkit.toList.flatMap r.reports ++ table.unswapped.map .diagnosed ++
          [.resolverSummary table.entries.size toolkit.size ignored table.diagnostics.length
            table.textCases.size]) ∧
    (∀ e, (r.resolve toolkit).outcome = .error e →
      ∃ before key after, toolkit.toList = before ++ key :: after ∧ e.key = key.1 ∧
        (∀ earlier ∈ before, ∃ outcome, (r.resolveKey earlier).outcome = .ok outcome) ∧
        (r.resolve toolkit).events = before.flatMap r.reports) ∧
    (∀ key resolution resolution',
      (Event.resolved key resolution).text = (Event.resolved key resolution').text →
        resolution = resolution') ∧
    ∀ d d' : Diagnostic, (∀ c ∈ d.key.toList, Text.isWord c) →
      (∀ c ∈ d'.key.toList, Text.isWord c) → d.message = d'.message → d = d' := by
  refine ⟨?_, ?_, fun _ _ _ => Event.text_resolved_inj, fun _ _ => Diagnostic.message_inj⟩
  · intro table h
    have hother := Resolver.filter_isOtherWarning_of_resolve h
    have hkeypad := Resolver.filter_isKeypadWarning_of_resolve h
    have htraces := Resolver.filter_trace_of_resolve h
    refine ⟨⟨hother, ?_, hkeypad, ?_, ⟨_, ?_, r.warnings_ascending toolkit⟩, htraces, ?_⟩,
      fun e he => Resolver.own?_eq_beforeExchange h he, Resolver.exists_events_resolve_eq h⟩
    · rw [hother, List.map_map]
      rfl
    · rw [hkeypad, List.map_filterMap]
      exact List.filterMap_congr fun e _ => Overrides.text_keypadWarning?
    · rw [Resolver.filter_events_of_resolve h Event.selects_warn r.filter_reports_warn, if_pos rfl]
    · rw [htraces, List.map_map]
      rfl
  · intro e h
    have hkeys := Resolver.resolve_outcome_eq_error_iff.1 h
    obtain ⟨before, key, after, hsplit, hbefore, hkey⟩ :=
      Resolver.resolveKeys_outcome_eq_error_iff.1 hkeys
    refine ⟨before, key, after, hsplit, Resolver.key_of_resolveKey_error hkey, hbefore, ?_⟩
    rw [Resolver.resolve, Logged.bind_error hkeys, hsplit,
      Resolver.events_resolveKeys_of_error hbefore hkey]

/-- `mixedResolver` with keypad keysyms. -/
def keypadResolver (keypad : List (String × String)) : Resolver :=
  { mixedResolver with
    overrides := (Overrides.empty.extend ⟨.ofList [("Meta", "a")], .ofList keypad, ["No"]⟩).1 }

/-- The keypad keysym of `A` is left aside. One of `Meta` that does not exist ends the reports
behind those on `A`. -/
theorem resolve_reports_mixedKeys :
    ((keypadResolver [("A", "A")]).resolve mixedKeys).outcome = .ok mixedDecisions ∧
      mixedDecisions.ToldBy (keypadResolver [("A", "A")]).overrides
        ((keypadResolver [("A", "A")]).resolve mixedKeys).events ∧
      ((keypadResolver [("A", "A")]).resolve mixedKeys).events.filter (Event.hasLevel .warn) =
        [.keypadNotApplied "A" "A", .diagnosed (.noMatch "Nil"),
          .diagnosed (.swapPartnerUnresolved "Meta" "Control")] ∧
      ((keypadResolver [("A", "A"), ("Meta", "KP_A")]).resolve mixedKeys).outcome =
        .error (.unknownKeypadSymbol "Meta" "KP_A") ∧
      ((keypadResolver [("A", "A"), ("Meta", "KP_A")]).resolve mixedKeys).events =
        [.keypadNotApplied "A" "A", .resolved "A" (.shift ⟨0x61⟩ ⟨0x63⟩)] ∧
      ∃ before key after, mixedKeys.toList = before ++ key :: after ∧ "Meta" = key.1 ∧
        ((keypadResolver [("A", "A"), ("Meta", "KP_A")]).resolve mixedKeys).events =
          before.flatMap (keypadResolver [("A", "A"), ("Meta", "KP_A")]).reports := by
  have hdone : (((keypadResolver [("A", "A")]).resolve mixedKeys).outcome,
      ((keypadResolver [("A", "A")]).resolve mixedKeys).events.filter (Event.hasLevel .warn)) =
        (.ok mixedDecisions, [.keypadNotApplied "A" "A", .diagnosed (.noMatch "Nil"),
          .diagnosed (.swapPartnerUnresolved "Meta" "Control")]) := by decide +kernel
  have hstopped : (((keypadResolver [("A", "A"), ("Meta", "KP_A")]).resolve mixedKeys).outcome,
      ((keypadResolver [("A", "A"), ("Meta", "KP_A")]).resolve mixedKeys).events) =
        (.error (.unknownKeypadSymbol "Meta" "KP_A"),
          [.keypadNotApplied "A" "A", .resolved "A" (.shift ⟨0x61⟩ ⟨0x63⟩)]) := by decide +kernel
  obtain ⟨hok, hwarnings⟩ := Prod.mk.inj hdone
  obtain ⟨herror, hreported⟩ := Prod.mk.inj hstopped
  obtain ⟨before, key, after, hsplit, hkey, -, hevents⟩ :=
    (resolve_reports (keypadResolver [("A", "A"), ("Meta", "KP_A")]) mixedKeys).2.1 _ herror
  exact ⟨hok, ((resolve_reports (keypadResolver [("A", "A")]) mixedKeys).1 _ hok).1, hwarnings,
    herror, hreported, before, key, after, hsplit, hkey, hevents⟩

end KeyDispatch
