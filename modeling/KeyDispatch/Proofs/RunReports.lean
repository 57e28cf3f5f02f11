import KeyDispatch.Proofs.OverrideLayers
import KeyDispatch.Proofs.RunChange

/-!
# What a run reports of its keys

Two events of a run say how many keys are mapped and how many are not: the summary of the resolver
and the summary of the whole run. Between them the run lists the diagnostics of its table.
`tableEvents` keeps these of the events of a step, and `accounts` only the two summaries. Every
other step of a run is quiet, so the table decides on them (`Generates.tableEvents_run`): a run that
generates a dispatch gives exactly two accounts (`Generates.runAccounts_eq`), prints each diagnostic
in a line of its own (`Generates.lists_diagnostics`), and fails for unresolved keys by the number of
its diagnostics (`Generates.runOutcome_eq_unresolvedKeys_iff`).
-/

namespace KeyDispatch

/-- The event says how many keys are mapped. -/
def Event.isAccount : Event → Bool
  | .resolverSummary _ _ _ _ _ => true
  | .generated _ _ _ => true
  | _ => false

/-- The event tells of the finished table. -/
def Event.isOfTable (e : Event) : Bool := e.isAccount || !e.isLogged

/-- The accounts stand among the events that tell of the table. -/
theorem Event.filter_isAccount_isOfTable (events : List Event) :
    (events.filter isOfTable).filter isAccount = events.filter isAccount := by
  rw [List.filter_filter]
  refine List.filter_congr fun e _ => ?_
  rw [isOfTable]
  cases e.isAccount <;> rfl

/-- So do the events that are no records of the log. -/
theorem Event.filter_not_isLogged_isOfTable (events : List Event) :
    (events.filter isOfTable).filter (fun e => !e.isLogged) =
      events.filter fun e => !e.isLogged := by
  rw [List.filter_filter]
  refine List.filter_congr fun e _ => ?_
  rw [isOfTable]
  cases e.isLogged <;> simp

/-! ## Steps on values -/

namespace Logged

variable {ε δ α β : Type}

/-- The accounts of the keys among the events of a step. -/
def accounts (x : Logged ε α) : List Event := x.events.filter Event.isAccount

/-- The events of a step that tell of the finished table. -/
def tableEvents (x : Logged ε α) : List Event := x.events.filter Event.isOfTable

theorem accounts_eq (x : Logged ε α) : x.accounts = x.tableEvents.filter Event.isAccount :=
  (Event.filter_isAccount_isOfTable x.events).symm

theorem tableEvents_bind_ok {x : Logged ε α} {f : α → Logged ε β} {a : α} (h : x.outcome = .ok a) :
    (x >>= f).tableEvents = x.tableEvents ++ (f a).tableEvents := by
  rw [tableEvents, bind_ok h, List.filter_append]
  rfl

/-- Steps that do not tell of the table do not when put together. -/
theorem tableEvents_bind_eq_nil {x : Logged ε α} {f : α → Logged ε β} (hx : x.tableEvents = [])
    (hf : ∀ a, (f a).tableEvents = []) : (x >>= f).tableEvents = [] := by
  cases h : x.outcome with
  | error e => rwa [tableEvents, bind_error h]
  | ok a => rw [tableEvents_bind_ok h, hx, hf, List.nil_append]

end Logged

/-- The reports on positions that are taken do not tell of the table. -/
theorem PrimaryTable.filter_declare (index : UnicodeIndex) (s : PrimarySymbol) :
    (declare index s).2.filter Event.isOfTable = [] := by
  unfold declare
  split
  · rfl
  · split <;> rfl

/-- The reports on dropped definitions do not tell of the table. -/
theorem PrimaryTable.filter_offer (t : PrimaryTable) (d : Numbered PrimarySymbol) :
    (t.offer d).2.filter Event.isOfTable = [] := by
  unfold offer
  split
  · rfl
  · split
    · rfl
    · split
      · rfl
      · exact filter_declare t.unicodeIndex d.content

theorem PrimaryTable.filter_offerAll (t : PrimaryTable) (ds : List (Numbered PrimarySymbol)) :
    (t.offerAll ds).2.filter Event.isOfTable = [] := by
  induction ds generalizing t with
  | nil => rfl
  | cons d ds ih =>
    show ((t.offer d).2 ++ ((t.offer d).1.offerAll ds).2).filter Event.isOfTable = []
    rw [List.filter_append, filter_offer, ih, List.nil_append]

theorem PrimaryTable.tableEvents_ofText (source : String) : (ofText source).tableEvents = [] := by
  have hoffered := filter_offerAll empty (definitions source).found
  unfold ofText Logged.tableEvents
  dsimp only
  split
  · exact hoffered
  · rw [List.filter_append, hoffered]
    rfl

theorem VendorTable.tableEvents_ofText (source : String) : (ofText source).tableEvents = [] := by
  unfold ofText
  dsimp only
  split <;> rfl

theorem ToolkitTable.tableEvents_ofText (source : String) : (ofText source).tableEvents = [] := by
  unfold ofText
  dsimp only
  split <;> rfl

namespace Resolver

variable {r : Resolver}

theorem tableEvents_applyKeypad (name : String) (base : Resolution) :
    (r.applyKeypad name base).tableEvents = [] := by
  cases r.keypadCase name base with
  | kept hnone heq => rw [heq]; rfl
  | unknown hname hcode heq => rw [heq]; rfl
  | added hname hcode hfixed heq => rw [heq]; rfl
  | leftAside hname hcode hne heq => rw [heq]; rfl

theorem tableEvents_resolveKey (key : String × UInt32) : (r.resolveKey key).tableEvents = [] := by
  cases r.keyCase key with
  | ignored hignored heq => rw [heq]; rfl
  | unresolved hignored hd heq => rw [heq]; rfl
  | inconsistent hignored heq => rw [heq]; rfl
  | unknownKeypad hignored hrule hname hcode heq => rw [heq]; rfl
  | @resolved base resolution hignored hrule hkeypad heq =>
    have hevents : (r.applyKeypad key.1 base).events.filter Event.isOfTable = [] :=
      tableEvents_applyKeypad key.1 base
    rw [heq, Logged.tableEvents, List.filter_append, hevents]
    rfl

theorem tableEvents_resolveKeys (keys : List (String × UInt32)) :
    (r.resolveKeys keys).tableEvents = [] := by
  induction keys with
  | nil => rfl
  | cons key keys ih =>
    refine Logged.tableEvents_bind_eq_nil (tableEvents_resolveKey key) fun outcome => ?_
    exact Logged.tableEvents_bind_eq_nil ih fun outcomes => rfl

/-- The resolver tells of its table once, by the numbers of the keys. -/
theorem tableEvents_resolve {toolkit : ToolkitTable} {outcomes : List KeyOutcome}
    (h : (r.resolveKeys toolkit.toList).outcome = .ok outcomes) :
    (r.resolve toolkit).tableEvents =
      [.resolverSummary (r.tableOf outcomes).entries.size toolkit.size
        (outcomes.countP KeyOutcome.isIgnored) (r.tableOf outcomes).diagnostics.length
        (r.tableOf outcomes).textCases.size] := by
  have hdiagnosed : ∀ diagnostics : List Diagnostic,
      (diagnostics.map Event.diagnosed).filter Event.isOfTable = [] := by
    intro diagnostics
    rw [List.filter_map, List.map_eq_nil_iff, List.filter_eq_nil_iff]
    exact fun d _ => Bool.false_ne_true
  rw [resolve, Logged.tableEvents_bind_ok h, tableEvents_resolveKeys, List.nil_append]
  dsimp only
  rw [Logged.tableEvents_bind_ok rfl, Logged.tableEvents, Logged.reportAll, hdiagnosed, List.nil_append,
    Logged.tableEvents_bind_ok rfl]
  rfl

/-- The resolver gives one account of the keys, with the numbers of its table. -/
theorem accounts_resolve {toolkit : ToolkitTable} {outcomes : List KeyOutcome}
    (h : (r.resolveKeys toolkit.toList).outcome = .ok outcomes) :
    (r.resolve toolkit).accounts =
      [.resolverSummary (r.tableOf outcomes).entries.size toolkit.size
        (outcomes.countP KeyOutcome.isIgnored) (r.tableOf outcomes).diagnostics.length
        (r.tableOf outcomes).textCases.size] := by
  rw [Logged.accounts_eq, tableEvents_resolve h]
  rfl

end Resolver

section BuildTable

variable {sources : SourceTexts} {overrides : Overrides} {primary : PrimaryTable}
  {vendor : VendorTable} {toolkit : ToolkitTable}
  (hprimary : (PrimaryTable.ofText sources.keysymdef).outcome = .ok primary)
  (hvendor : (VendorTable.ofText sources.vendor).outcome = .ok vendor)
  (htoolkit : (ToolkitTable.ofText sources.toolkit).outcome = .ok toolkit)

include hprimary hvendor htoolkit

/-- Headers that give a table tell of it as the resolver does. -/
theorem tableEvents_buildTable :
    (buildTable sources overrides).tableEvents =
      (Resolver.resolve ⟨primary, vendor, overrides⟩ toolkit).tableEvents := by
  have hprimary' := Logged.outcome_mapError_eq_ok_iff (f := GenerateError.header) |>.2 hprimary
  have hvendor' := Logged.outcome_mapError_eq_ok_iff (f := GenerateError.header) |>.2 hvendor
  have htoolkit' := Logged.outcome_mapError_eq_ok_iff (f := GenerateError.header) |>.2 htoolkit
  have hprimaryQuiet := PrimaryTable.tableEvents_ofText sources.keysymdef
  have hvendorQuiet := VendorTable.tableEvents_ofText sources.vendor
  have htoolkitQuiet := ToolkitTable.tableEvents_ofText sources.toolkit
  rw [buildTable, Logged.tableEvents_bind_ok hprimary', Logged.tableEvents_bind_ok hvendor',
    Logged.tableEvents_bind_ok htoolkit']
  simp only [Logged.tableEvents, Logged.mapError] at *
  rw [hprimaryQuiet, hvendorQuiet, htoolkitQuiet]
  rfl

/-- Headers that give a table give the account of the resolver. -/
theorem accounts_buildTable :
    (buildTable sources overrides).accounts =
      (Resolver.resolve ⟨primary, vendor, overrides⟩ toolkit).accounts := by
  rw [Logged.accounts_eq, tableEvents_buildTable hprimary hvendor htoolkit, ← Logged.accounts_eq]

end BuildTable

/-- The events that tell of the table of headers are records of the log. -/
theorem filter_not_isLogged_buildTable {sources : SourceTexts} {overrides : Overrides}
    {table : DecisionTable} (h : (buildTable sources overrides).outcome = .ok table) :
    ((buildTable sources overrides).tableEvents.filter fun e => !e.isLogged) = [] := by
  obtain ⟨primary, hprimary, vendor, hvendor, toolkit, htoolkit, hresolve⟩ :=
    buildTable_outcome_eq_ok_iff.1 h
  obtain ⟨outcomes, hkeys, -⟩ := Resolver.resolve_outcome_eq_ok_iff.1 hresolve
  rw [tableEvents_buildTable hprimary hvendor htoolkit, Resolver.tableEvents_resolve hkeys]
  rfl

/-- Everything that is reported of a finished table tells of it. -/
theorem filter_isOfTable_tableReports (t : DecisionTable) :
    (tableReports t).filter Event.isOfTable = tableReports t := by
  rw [List.filter_eq_self]
  intro event hevent
  rcases List.mem_append.1 hevent with h | h
  · obtain ⟨d, -, rfl⟩ := List.mem_map.1 h
    rfl
  · obtain rfl := List.mem_singleton.1 h
    rfl

/-- One account of the keys is among it. -/
theorem filter_isAccount_tableReports (t : DecisionTable) :
    (tableReports t).filter Event.isAccount = [summary t] := by
  have hlisted : (t.diagnostics.map Event.listed).filter Event.isAccount = [] :=
    List.filter_eq_nil_iff.2 (List.forall_mem_map.2 fun d _ => Bool.false_ne_true)
  rw [tableReports, List.filter_append, hlisted]
  rfl

/-- All of it but the summary goes past the log. -/
theorem filter_not_isLogged_tableReports (t : DecisionTable) :
    ((tableReports t).filter fun e => !e.isLogged) = t.diagnostics.map .listed := by
  have hlisted : (t.diagnostics.map Event.listed).filter (fun e => !e.isLogged) =
      t.diagnostics.map .listed := List.filter_eq_self.2 (List.forall_mem_map.2 fun d _ => rfl)
  rw [tableReports, List.filter_append, hlisted]
  exact List.append_nil _

/-- Rendering tells nothing of the table. -/
theorem tableEvents_generate (sources : SourceTexts) (overrides : Overrides) (artifact : Artifact) :
    (generate sources overrides artifact).tableEvents = (buildTable sources overrides).tableEvents := by
  cases h : (buildTable sources overrides).outcome with
  | error e => rw [generate, Logged.tableEvents, Logged.bind_error h, Logged.tableEvents]
  | ok table =>
    rw [generate, Logged.tableEvents_bind_ok h]
    exact List.append_nil _

/-! ## Steps on a store -/

namespace LoggedT

variable {σ ε δ α β : Type}

/-- The accounts of the keys among the events of a step on a store. -/
def accounts (x : LoggedT (StateM σ) ε α) (s : σ) : List Event := (x.on s).1.accounts

/-- The events of a step on a store that tell of the finished table. -/
def tableEvents (x : LoggedT (StateM σ) ε α) (s : σ) : List Event := (x.on s).1.tableEvents

/-- The step tells nothing of the table, on whatever store. -/
def Quiet (x : LoggedT (StateM σ) ε α) : Prop := ∀ s, x.tableEvents s = []

section Steps

variable {x : LoggedT (StateM σ) ε α} {f : α → LoggedT (StateM σ) ε β} {s : σ}

theorem tableEvents_bind_ok {a : α} (h : x.outcome s = .ok a) :
    (x >>= f).tableEvents s = x.tableEvents s ++ (f a).tableEvents (x.after s) := by
  rw [tableEvents, on_bind_ok h, Logged.tableEvents, List.filter_append]
  rfl

/-- After a quiet step that keeps the store, only the next step tells of the table. -/
theorem Quiet.tableEvents_bind (hx : x.Quiet) (hkeeps : x.Keeps) {a : α} (h : x.outcome s = .ok a) :
    (x >>= f).tableEvents s = (f a).tableEvents s := by
  rw [tableEvents_bind_ok h, hx s, hkeeps s, List.nil_append]

theorem Quiet.bind (hx : x.Quiet) (hf : ∀ a, (f a).Quiet) : (x >>= f).Quiet := by
  intro s
  cases h : x.outcome s with
  | error e =>
    rw [tableEvents, on_bind_error h]
    exact hx s
  | ok a => rw [tableEvents_bind_ok h, hx s, hf a, List.nil_append]

end Steps

theorem quiet_ofLogged {l : Logged ε α} (hl : l.tableEvents = []) :
    (ofLogged l : LoggedT (StateM σ) ε α).Quiet := fun _ => hl

theorem quiet_pure (a : α) : (pure a : LoggedT (StateM σ) ε α).Quiet := fun _ => rfl

theorem quiet_fail (e : ε) : (fail e : LoggedT (StateM σ) ε α).Quiet := fun _ => rfl

theorem quiet_lift (x : StateM σ α) : (lift x : LoggedT (StateM σ) ε α).Quiet := fun _ => rfl

theorem Quiet.mapError {x : LoggedT (StateM σ) δ α} (hx : x.Quiet) (f : δ → ε) :
    (mapError f x).Quiet := hx

theorem quiet_ofExcept (f : δ → ε) (x : StateM σ (Except δ α)) : (ofExcept f x).Quiet := by
  intro s
  cases h : (x s).1 with
  | error e =>
    rw [tableEvents, ofExcept_on_error (Prod.ext h rfl)]
    rfl
  | ok a =>
    rw [tableEvents, ofExcept_on_ok (Prod.ext h rfl)]
    rfl

end LoggedT

open LoggedT

theorem Config.quiet_load (path : String) :
    (Config.load path : LoggedT (StateM GuardedDisk) _ _).Quiet := by
  refine (quiet_ofExcept _ _).bind fun text => ?_
  split
  · exact quiet_pure _
  · exact quiet_fail _

theorem Config.quiet_loadDefault (env : Environment) :
    (Config.loadDefault env : LoggedT (StateM GuardedDisk) _ _).Quiet := by
  unfold loadDefault
  split
  · exact quiet_pure _
  · refine (quiet_lift _).bind fun found => ?_
    split
    · exact (quiet_ofLogged rfl).bind fun _ => quiet_load _
    · exact quiet_pure _

/-- The reports on headers that are found do not tell of the table. -/
theorem SourcePaths.filter_searched (env : Environment) (source : Source)
    (configured : Option String) (g : GuardedDisk) :
    (searched env source configured g).events.filter Event.isOfTable = [] := by
  unfold searched locateOne
  cases configured with
  | some path =>
    dsimp only
    rw [GuardedDisk.bind_on, GuardedDisk.isFile_on]
    cases g.isFile path <;> rfl
  | none =>
    dsimp only
    rw [GuardedDisk.bind_on, firstFile_on]
    cases (candidates env source).find? g.isFile <;> rfl

theorem SourcePaths.quiet_locate (env : Environment) (inputs : InputPaths) :
    (SourcePaths.locate env inputs : LoggedT (StateM GuardedDisk) _ _).Quiet := by
  intro g
  rw [LoggedT.tableEvents, locate_on, Logged.tableEvents]
  dsimp only
  rw [List.filter_append, List.filter_append, filter_searched, filter_searched, filter_searched]
  rfl

theorem SourcePaths.quiet_read (paths : SourcePaths) :
    (paths.read : LoggedT (StateM GuardedDisk) _ _).Quiet :=
  (quiet_ofExcept _ _).bind fun _ => (quiet_ofExcept _ _).bind fun _ =>
    (quiet_ofExcept _ _).bind fun _ => quiet_pure _

theorem quiet_loadConfig (env : Environment) (args : Arguments) :
    (loadConfig env args : LoggedT (StateM GuardedDisk) _ _).Quiet := by
  unfold loadConfig
  split
  · exact ((Config.quiet_load _).mapError _).bind fun _ => quiet_pure _
  · exact ((Config.quiet_loadDefault env).mapError _).bind fun _ => quiet_pure _

theorem quiet_checkOutput (path text : String) :
    (checkOutput path text : LoggedT (StateM GuardedDisk) _ _).Quiet := by
  refine (quiet_ofExcept _ _).bind fun fresh => ?_
  split
  · exact quiet_ofLogged rfl
  · exact quiet_fail _

theorem quiet_writeOutput (env : Environment) (path text : String) :
    (writeOutput env path text : LoggedT (StateM GuardedDisk) _ _).Quiet :=
  (quiet_ofExcept _ _).bind fun _ => quiet_ofLogged rfl

/-- The reports on replaced overrides do not tell of the table. -/
theorem tableEvents_reportOverrides (config : Config) : (reportOverrides config).tableEvents = [] := by
  show config.overrides.2.filter Event.isOfTable = []
  rw [Config.overrides_eq_extend, Overrides.events_extend, List.filter_eq_nil_iff]
  intro event hevent
  rcases List.mem_append.1 hevent with h | h
  · obtain ⟨c, -, rfl⟩ := List.mem_map.1 h
    exact Bool.false_ne_true
  · obtain ⟨c, -, rfl⟩ := List.mem_map.1 h
    exact Bool.false_ne_true

/-! ## Runs -/

/-- The events of a run. -/
def runEvents (env : Environment) (args : Arguments) (g : GuardedDisk) : List Event :=
  ((run env args : LoggedT (StateM GuardedDisk) RunFailure Unit).on g).1.events

/-- The accounts of the keys that a run gives. -/
def runAccounts (env : Environment) (args : Arguments) (g : GuardedDisk) : List Event :=
  (run env args : LoggedT (StateM GuardedDisk) RunFailure Unit).accounts g

/-- What comes of the output file is no failure for unresolved keys. -/
theorem checkOutput_outcome_ne {path text : String} {g : GuardedDisk} {n : Nat} :
    (checkOutput path text : LoggedT (StateM GuardedDisk) _ _).outcome g ≠
      .error (.unresolvedKeys n) := by
  unfold checkOutput
  rw [outcome_bind (keeps_ofExcept fun g => by rw [isUpToDate_on])]
  cases hread : ((OutputFile.isUpToDate path text : StateM GuardedDisk _) g).1 with
  | error e =>
    rw [outcome, ofExcept_on_error (Prod.ext hread rfl)]
    intro he
    cases he
  | ok fresh =>
    rw [outcome, ofExcept_on_ok (Prod.ext hread rfl)]
    intro he
    cases fresh <;> cases he

theorem writeOutput_outcome_ne {env : Environment} {path text : String} {g : GuardedDisk}
    {n : Nat} :
    (writeOutput env path text : LoggedT (StateM GuardedDisk) _ _).outcome g ≠
      .error (.unresolvedKeys n) := by
  cases hreplace : g.replace env.processId path text with
  | mk result after =>
    cases result with
    | error e =>
      rw [outcome, writeOutput_on_error hreplace]
      intro he
      cases he
    | ok =>
      rw [outcome, writeOutput_on_ok hreplace]
      intro he
      cases he

section Run

variable {env : Environment} {args : Arguments} {g : GuardedDisk} {file : Config}
  {paths : SourcePaths} {texts : SourceTexts} {generated : Generated}

namespace Generates

variable (h : Generates env args g file paths texts generated)

include h

/-- While the dispatch is generated, the resolver tells of its table, and then the run does. -/
theorem tableEvents_produce :
    (produce env (args.mergeInto file) : LoggedT (StateM GuardedDisk) _ _).tableEvents g =
      (buildTable texts (runOverrides file)).tableEvents ++ tableReports generated.table := by
  have hlocate : (mapError RunFailure.inputs (SourcePaths.locate env (args.mergeInto file).inputs) :
      LoggedT (StateM GuardedDisk) _ _).outcome g = .ok paths := by
    refine outcome_mapError_eq_ok_iff.2 (SourcePaths.locate_outcome_eq_ok_iff.2 fun source => ?_)
    exact (mergeInto_path? file source).symm ▸ h.located source
  have hread : (mapError RunFailure.inputs paths.read :
      LoggedT (StateM GuardedDisk) _ _).outcome g = .ok texts :=
    outcome_mapError_eq_ok_iff.2 (SourcePaths.read_outcome_eq_ok_iff.2 h.read)
  have hoverrides : (ofLogged (reportOverrides (args.mergeInto file)) :
      LoggedT (StateM GuardedDisk) _ _).outcome g = .ok (runOverrides file) :=
    congrArg Except.ok (args.mergeInto file).overrides_fst
  have hproduced : (ofLogged ((generate texts (runOverrides file)
      (Artifact.ofFormat (chosenFormat args file) file.output.functionName)).mapError .generation) :
        LoggedT (StateM GuardedDisk) RunFailure _).outcome g = .ok generated :=
    Logged.outcome_mapError_eq_ok_iff.2 h.produced
  have hreadings : (ofLogged (.reportAll (Source.all.map fun source =>
      .readingInput source (paths.path source))) :
        LoggedT (StateM GuardedDisk) RunFailure Unit).Quiet := quiet_ofLogged rfl
  -- finding and reading the headers is quiet, and so are the overrides
  rw [produce, (SourcePaths.quiet_locate _ _).mapError _ |>.tableEvents_bind
      (SourcePaths.keeps_locate.mapError _) hlocate,
    hreadings.tableEvents_bind (keeps_ofLogged _) rfl,
    (SourcePaths.quiet_read _).mapError _ |>.tableEvents_bind
      ((SourcePaths.keeps_read _).mapError _) hread,
    (quiet_ofLogged (tableEvents_reportOverrides _)).tableEvents_bind (keeps_ofLogged _) hoverrides]
  refine (tableEvents_bind_ok hproduced).trans ?_
  have hreported : (ofLogged (.reportAll (tableReports generated.table)) >>= fun _ =>
      pure generated : LoggedT (StateM GuardedDisk) RunFailure Generated).tableEvents g =
        tableReports generated.table := by
    refine (tableEvents_bind_ok rfl).trans ?_
    exact (List.append_nil _).trans (filter_isOfTable_tableReports generated.table)
  rw [← tableEvents_generate texts _ (Artifact.ofFormat (chosenFormat args file)
    file.output.functionName)]
  exact congrArg₂ _ rfl hreported

/-- A run that generates a dispatch tells of its table in the resolver's words, in the list of its
diagnostics and in its summary. -/
theorem tableEvents_run :
    (runEvents env args g).filter Event.isOfTable =
      (buildTable texts (runOverrides file)).tableEvents ++ tableReports generated.table := by
  have hrest : (if args.denyUnresolved && generated.table.diagnostics.length != 0 then
      LoggedT.fail (.unresolvedKeys generated.table.diagnostics.length)
    else if args.check then checkOutput (effectivePath (args.mergeInto file)) generated.output
    else writeOutput env (effectivePath (args.mergeInto file)) generated.output :
      LoggedT (StateM GuardedDisk) RunFailure Unit).Quiet := by
    split
    · exact quiet_fail _
    · split
      · exact quiet_checkOutput _ _
      · exact quiet_writeOutput _ _ _
  show (run env args : LoggedT (StateM GuardedDisk) RunFailure Unit).tableEvents g = _
  rw [run, (quiet_loadConfig env args).tableEvents_bind keeps_loadConfig h.loadConfig_outcome,
    tableEvents_bind_ok h.produce_outcome, h.tableEvents_produce, hrest, List.append_nil]

/-- A run that generates a dispatch gives the accounts of the resolver and of the run. -/
theorem runAccounts_eq :
    runAccounts env args g =
      (buildTable texts (runOverrides file)).accounts ++ [summary generated.table] := by
  show (runEvents env args g).filter Event.isAccount = _
  rw [← Event.filter_isAccount_isOfTable, h.tableEvents_run, List.filter_append,
    ← Logged.accounts_eq, filter_isAccount_tableReports]

/-- A run that generates a dispatch prints past the log just the diagnostics of its table, each in a
line of its own and in order, whatever level the log shows. -/
theorem lists_diagnostics (level : Level) :
    ((runEvents env args g).filter fun e => !e.isLogged) =
        generated.table.diagnostics.map .listed ∧
      (generated.table.diagnostics.map fun d => "  " ++ d.message).Sublist
        (Event.shownLines level (runEvents env args g)) := by
  obtain ⟨table, htable, -⟩ := Logged.outcome_bind_eq_ok_iff.1 h.produced
  have hlisted : ((runEvents env args g).filter fun e => !e.isLogged) =
      generated.table.diagnostics.map .listed := by
    rw [← Event.filter_not_isLogged_isOfTable, h.tableEvents_run, List.filter_append,
      filter_not_isLogged_buildTable htable, List.nil_append, filter_not_isLogged_tableReports]
  refine ⟨hlisted, ?_⟩
  have hlines : (generated.table.diagnostics.map fun d => "  " ++ d.message) =
      (generated.table.diagnostics.map Event.listed).map Event.line := by
    rw [List.map_map]
    rfl
  have hshown : ((runEvents env args g).filter fun e => !e.isLogged).Sublist
      ((runEvents env args g).filter (Event.isShownAt level)) := by
    refine List.monotone_filter_right _ fun e he => ?_
    exact Bool.or_eq_true_iff.2 (.inl he)
  rw [hlines, ← hlisted]
  exact hshown.map Event.line

/-- A run fails for unresolved keys if it is to deny them and there is a diagnostic, and then by the
number of all diagnostics. -/
theorem runOutcome_eq_unresolvedKeys_iff {n : Nat} :
    runOutcome env args g = .error (.unresolvedKeys n) ↔
      args.denyUnresolved = true ∧ n = generated.table.diagnostics.length ∧ n ≠ 0 := by
  rw [runOutcome, run, outcome_bind keeps_loadConfig, h.loadConfig_outcome]
  show ((produce env (args.mergeInto file) : LoggedT (StateM GuardedDisk) _ _) >>= _).outcome g =
    _ ↔ _
  rw [outcome_bind (keeps_produce _), h.produce_outcome]
  simp only [bind, Except.bind]
  split
  · rename_i hdeny
    rw [Bool.and_eq_true, bne_iff_ne] at hdeny
    constructor
    · intro he
      obtain rfl : generated.table.diagnostics.length = n :=
        RunFailure.unresolvedKeys.inj (Except.error.inj he)
      exact ⟨hdeny.1, rfl, hdeny.2⟩
    · rintro ⟨-, rfl, -⟩
      rfl
  · rename_i hallowed
    refine iff_of_false ?_ ?_
    · split
      · exact checkOutput_outcome_ne
      · exact writeOutput_outcome_ne
    · rintro ⟨hdeny, rfl, hne⟩
      exact hallowed (Bool.and_eq_true_iff.2 ⟨hdeny, bne_iff_ne.2 hne⟩)

end Generates

end Run

end KeyDispatch
