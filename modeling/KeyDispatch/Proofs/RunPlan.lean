import KeyDispatch.Proofs.GuardedDisk
import KeyDispatch.Proofs.StoreSteps

/-!
# The plan of a run

Before a run turns to its output file it only looks and reads. `plan` is this part of a run. It
leaves the disk as it is, and it succeeds exactly if there are a configuration, headers, texts and a
generated dispatch as `Prepares` asks for them.
-/

namespace KeyDispatch

/-! ## Looking and reading -/

open LoggedT

/-- The text of one header. -/
def SourceTexts.text (t : SourceTexts) : Source → String
  | .keysymdef => t.keysymdef
  | .vendor => t.vendor
  | .toolkit => t.toolkit

variable {g : GuardedDisk}

/-- The path of a header: the one that is chosen, if it leads to a file, and if none is chosen the
first of the usual places that leads to a file. -/
inductive InputFound (env : Environment) (g : GuardedDisk) (source : Source) :
    Option String → String → Prop
  | chosen {path : String} (h : g.isFile path = true) : InputFound env g source (some path) path
  | usual {path : String} (h : (SourcePaths.candidates env source).find? g.isFile = some path) :
    InputFound env g source none path

theorem inputFound_some_iff {env : Environment} {source : Source} {chosen path : String} :
    InputFound env g source (some chosen) path ↔ g.isFile chosen = true ∧ chosen = path := by
  constructor
  · rintro ⟨h⟩
    exact ⟨h, rfl⟩
  · rintro ⟨h, rfl⟩
    exact .chosen h

theorem inputFound_none_iff {env : Environment} {source : Source} {path : String} :
    InputFound env g source none path ↔
      (SourcePaths.candidates env source).find? g.isFile = some path := by
  constructor
  · rintro ⟨⟩
    assumption
  · exact .usual

/-- The configuration of a run, before the command line is put over it: the one in the file that
the command line names, or in the file at the usual place if there is one, or the one in which
nothing is set. -/
inductive ConfigFound (env : Environment) (args : Arguments) (g : GuardedDisk) : Config → Prop
  | given {path text : String} {file : Config} (hpath : args.config = some path)
    (htext : g.readText path = .ok text) (hfile : Config.ofToml? text = some file) :
    ConfigFound env args g file
  | usual {path text : String} {file : Config} (hargs : args.config = none)
    (hpath : env.configPath? = some path) (hexists : g.pathExists path = true)
    (htext : g.readText path = .ok text) (hfile : Config.ofToml? text = some file) :
    ConfigFound env args g file
  | unset (hargs : args.config = none)
    (hnone : ∀ path ∈ env.configPath?, g.pathExists path = false) :
    ConfigFound env args g Config.default

section ConfigFound

variable {env : Environment} {args : Arguments} {path : String} {file : Config}

theorem configFound_given_iff (hargs : args.config = some path) :
    ConfigFound env args g file ↔
      ∃ text, g.readText path = .ok text ∧ Config.ofToml? text = some file := by
  constructor
  · rintro (⟨hpath, htext, hfile⟩ | ⟨hnone, -, -, -, -⟩ | ⟨hnone, -⟩)
    · rw [hargs] at hpath
      cases hpath
      exact ⟨_, htext, hfile⟩
    · rw [hargs] at hnone
      cases hnone
    · rw [hargs] at hnone
      cases hnone
  · rintro ⟨text, htext, hfile⟩
    exact .given hargs htext hfile

theorem configFound_unset_iff (hargs : args.config = none)
    (hnone : ∀ path ∈ env.configPath?, g.pathExists path = false) :
    ConfigFound env args g file ↔ file = Config.default := by
  constructor
  · rintro (⟨hpath, -, -⟩ | ⟨-, hpath, hexists, -, -⟩ | -)
    · rw [hargs] at hpath
      cases hpath
    · rw [hnone _ hpath] at hexists
      cases hexists
    · rfl
  · rintro rfl
    exact .unset hargs hnone

theorem configFound_usual_iff (hargs : args.config = none) (hpath : env.configPath? = some path)
    (hexists : g.pathExists path = true) :
    ConfigFound env args g file ↔
      ∃ text, g.readText path = .ok text ∧ Config.ofToml? text = some file := by
  constructor
  · rintro (⟨hgiven, -, -⟩ | ⟨-, husual, -, htext, hfile⟩ | ⟨-, hnone⟩)
    · rw [hargs] at hgiven
      cases hgiven
    · rw [hpath] at husual
      cases husual
      exact ⟨_, htext, hfile⟩
    · rw [hnone path hpath] at hexists
      cases hexists
  · rintro ⟨text, htext, hfile⟩
    exact .usual hargs hpath hexists htext hfile

end ConfigFound

namespace SourcePaths

theorem firstFile_on (paths : List String) (g : GuardedDisk) :
    (firstFile paths : StateM GuardedDisk (Option String)) g = (paths.find? g.isFile, g) := by
  induction paths with
  | nil => rfl
  | cons path rest ih =>
    unfold firstFile
    rw [GuardedDisk.bind_on, GuardedDisk.isFile_on, List.find?_cons]
    cases g.isFile path with
    | true => rfl
    | false => exact ih

/-- What the search for one header comes to. -/
def searched (env : Environment) (source : Source) (configured : Option String) (g : GuardedDisk) :
    Logged ConfigError String :=
  ((locateOne env source configured : StateM GuardedDisk (Logged ConfigError String)) g).1

theorem locateOne_on (env : Environment) (source : Source) (configured : Option String)
    (g : GuardedDisk) :
    (locateOne env source configured : StateM GuardedDisk (Logged ConfigError String)) g =
      (searched env source configured g, g) := by
  refine Prod.ext rfl ?_
  unfold locateOne
  cases configured with
  | some path =>
    dsimp only
    rw [GuardedDisk.bind_on, GuardedDisk.isFile_on]
    cases g.isFile path <;> rfl
  | none =>
    dsimp only
    rw [GuardedDisk.bind_on, firstFile_on]
    cases (candidates env source).find? g.isFile <;> rfl

theorem searched_outcome_eq_ok_iff {env : Environment} {source : Source}
    {configured : Option String} {path : String} :
    (searched env source configured g).outcome = .ok path ↔
      InputFound env g source configured path := by
  unfold searched locateOne
  cases configured with
  | some chosen =>
    rw [inputFound_some_iff]
    dsimp only
    rw [GuardedDisk.bind_on, GuardedDisk.isFile_on]
    cases g.isFile chosen with
    | true =>
      show Except.ok chosen = .ok path ↔ true = true ∧ chosen = path
      simp
    | false =>
      show Except.error _ = .ok path ↔ false = true ∧ chosen = path
      simp
  | none =>
    rw [inputFound_none_iff]
    dsimp only
    rw [GuardedDisk.bind_on, firstFile_on]
    cases (candidates env source).find? g.isFile with
    | some found =>
      show Except.ok found = .ok path ↔ some found = some path
      simp
    | none =>
      show Except.error _ = .ok path ↔ none = some path
      simp

variable {env : Environment} {inputs : InputPaths} {paths : SourcePaths}

/-- The three headers are looked for one after the other, and the first one missing is the error. -/
theorem locate_on (env : Environment) (inputs : InputPaths) (g : GuardedDisk) :
    (locate env inputs : LoggedT (StateM GuardedDisk) _ _).on g =
      (⟨(searched env .keysymdef inputs.keysymdef g).events ++
          (searched env .vendor inputs.vendor g).events ++
          (searched env .toolkit inputs.toolkit g).events, do
        return ⟨← (searched env .keysymdef inputs.keysymdef g).outcome,
          ← (searched env .vendor inputs.vendor g).outcome,
          ← (searched env .toolkit inputs.toolkit g).outcome⟩⟩, g) := by
  unfold LoggedT.on locate
  dsimp only
  rw [GuardedDisk.bind_on, locateOne_on, GuardedDisk.bind_on, locateOne_on, GuardedDisk.bind_on,
    locateOne_on]
  rfl

theorem keeps_locate : (locate env inputs : LoggedT (StateM GuardedDisk) _ _).Keeps := by
  intro g
  rw [LoggedT.after, locate_on]

theorem locate_outcome_eq_ok_iff :
    (locate env inputs : LoggedT (StateM GuardedDisk) _ _).outcome g = .ok paths ↔
      ∀ source, InputFound env g source (inputs.path? source) (paths.path source) := by
  rw [LoggedT.outcome, locate_on]
  simp only [except_bind_eq_ok_iff, searched_outcome_eq_ok_iff]
  constructor
  · rintro ⟨k, hk, v, hv, t, ht, heq⟩ source
    cases heq
    cases source with
    | keysymdef => exact hk
    | vendor => exact hv
    | toolkit => exact ht
  · intro h
    exact ⟨_, h .keysymdef, _, h .vendor, _, h .toolkit, rfl⟩

theorem keeps_readOne (path : String) :
    (readOne path : LoggedT (StateM GuardedDisk) _ _).Keeps :=
  keeps_ofExcept fun _ => rfl

theorem readOne_outcome_eq_ok_iff {path text : String} :
    (readOne path : LoggedT (StateM GuardedDisk) _ _).outcome g = .ok text ↔
      g.readText path = .ok text :=
  outcome_ofExcept_eq_ok_iff

theorem keeps_read (paths : SourcePaths) :
    (paths.read : LoggedT (StateM GuardedDisk) _ _).Keeps :=
  (keeps_readOne _).bind fun _ => (keeps_readOne _).bind fun _ => (keeps_readOne _).bind fun _ =>
    keeps_pure _

theorem read_outcome_eq_ok_iff {texts : SourceTexts} :
    (paths.read : LoggedT (StateM GuardedDisk) _ _).outcome g = .ok texts ↔
      ∀ source, g.readText (paths.path source) = .ok (texts.text source) := by
  unfold read
  simp only [outcome_bind_eq_ok_iff (keeps_readOne _), readOne_outcome_eq_ok_iff, outcome_pure]
  constructor
  · rintro ⟨k, hk, v, hv, t, ht, heq⟩ source
    cases heq
    cases source with
    | keysymdef => exact hk
    | vendor => exact hv
    | toolkit => exact ht
  · intro h
    exact ⟨_, h .keysymdef, _, h .vendor, _, h .toolkit, rfl⟩

end SourcePaths

namespace Config

theorem keeps_load (path : String) : (load path : LoggedT (StateM GuardedDisk) _ _).Keeps := by
  refine (keeps_ofExcept fun _ => rfl).bind fun text => ?_
  split
  · exact keeps_pure _
  · exact keeps_ofLogged _

theorem load_outcome_eq_ok_iff {path : String} {file : Config} :
    (load path : LoggedT (StateM GuardedDisk) _ _).outcome g = .ok file ↔
      ∃ text, g.readText path = .ok text ∧ ofToml? text = some file := by
  unfold load
  rw [outcome_bind_eq_ok_iff (keeps_ofExcept fun _ => rfl)]
  refine exists_congr fun text => and_congr outcome_ofExcept_eq_ok_iff ?_
  cases ofToml? text with
  | none =>
    show Except.error _ = .ok file ↔ none = some file
    simp
  | some config =>
    show Except.ok config = .ok file ↔ some config = some file
    simp

theorem keeps_loadDefault (env : Environment) :
    (loadDefault env : LoggedT (StateM GuardedDisk) _ _).Keeps := by
  unfold loadDefault
  split
  · exact keeps_pure _
  · refine (keeps_lift fun _ => rfl).bind fun found => ?_
    split
    · exact (keeps_ofLogged _).bind fun _ => keeps_load _
    · exact keeps_pure _

theorem loadDefault_outcome_eq_ok_iff {env : Environment} {args : Arguments} {file : Config}
    (hargs : args.config = none) :
    (loadDefault env : LoggedT (StateM GuardedDisk) _ _).outcome g = .ok file ↔
      ConfigFound env args g file := by
  unfold loadDefault
  cases hpath : env.configPath? with
  | none =>
    rw [configFound_unset_iff hargs (by simp [hpath])]
    show Except.ok Config.default = .ok file ↔ _
    simp [eq_comm]
  | some path =>
    dsimp only
    rw [outcome_bind (keeps_lift fun _ => rfl), outcome_lift, GuardedDisk.pathExists_on]
    cases hexists : g.pathExists path with
    | true =>
      rw [configFound_usual_iff hargs hpath hexists, ← load_outcome_eq_ok_iff]
      show (LoggedT.report (.loadingConfig path) >>= fun _ => load path).outcome g = .ok file ↔ _
      rw [outcome_report_bind]
    | false =>
      rw [configFound_unset_iff hargs (by simp [hpath, hexists])]
      show Except.ok Config.default = .ok file ↔ _
      simp [eq_comm]

end Config

/-! ## The plan -/

section Plan

variable {m : Type → Type} [Monad m] [FileStore m]

/-- What a run does before it turns to its output file: the path of the file and the text for it. -/
def plan (env : Environment) (args : Arguments) : LoggedT m RunFailure (String × String) := do
  let config ← loadConfig env args
  let generated ← produce env config
  let unresolved := generated.table.diagnostics.length
  if args.denyUnresolved && unresolved != 0 then .fail (.unresolvedKeys unresolved)
  else return (effectivePath config, generated.output)

/-- What a run does with its output file. -/
def finish (env : Environment) (args : Arguments) (output : String × String) :
    LoggedT m RunFailure Unit :=
  if args.check then checkOutput output.1 output.2 else writeOutput env output.1 output.2

end Plan

/-- The path that the command line gives for a header, or else the configuration. -/
def chosenInput (args : Arguments) (file : Config) : Source → Option String
  | .keysymdef => args.keysymdef.or file.inputs.keysymdef
  | .vendor => args.vendor.or file.inputs.vendor
  | .toolkit => args.toolkit.or file.inputs.toolkit

/-- The format that the command line gives, or else the configuration, or else that of a Rust
module. -/
def chosenFormat (args : Arguments) (file : Config) : OutputFormat :=
  (args.format.or file.output.format).getD .rustModule

/-- The path that the command line gives for the output file, or else the configuration, or else
the usual name for the format. -/
def chosenOutput (args : Arguments) (file : Config) : String :=
  (args.output.or file.output.path).getD (chosenFormat args file).fileName

/-- What a run finds on a disk before it turns to its output file: the configuration, the headers
where it names them or where they usually are, their texts, and the dispatch generated from them by
the built-in overrides with those of the configuration. -/
structure Prepares (env : Environment) (args : Arguments) (g : GuardedDisk) (file : Config)
    (paths : SourcePaths) (texts : SourceTexts) (generated : Generated) : Prop where
  config : ConfigFound env args g file
  located : ∀ source, InputFound env g source (chosenInput args file source) (paths.path source)
  read : ∀ source, g.readText (paths.path source) = .ok (texts.text source)
  produced : (generate texts (Overrides.builtin.extend file.extensions).1
    (Artifact.ofFormat (chosenFormat args file) file.output.functionName)).outcome = .ok generated
  allowed : args.denyUnresolved = true → generated.table.diagnostics = []

variable {env : Environment} {args : Arguments}

theorem keeps_loadConfig : (loadConfig env args : LoggedT (StateM GuardedDisk) _ _).Keeps := by
  unfold loadConfig
  split
  · exact (Keeps.mapError (Config.keeps_load _) _).bind fun _ => keeps_pure _
  · exact (Keeps.mapError (Config.keeps_loadDefault env) _).bind fun _ => keeps_pure _

theorem loadConfig_outcome_eq_ok_iff {config : Config} :
    (loadConfig env args : LoggedT (StateM GuardedDisk) _ _).outcome g = .ok config ↔
      ∃ file, ConfigFound env args g file ∧ args.mergeInto file = config := by
  unfold loadConfig
  cases hargs : args.config with
  | some path =>
    dsimp only
    rw [outcome_bind_eq_ok_iff (Keeps.mapError (Config.keeps_load _) _)]
    refine exists_congr fun file => and_congr ?_ ?_
    · rw [outcome_mapError_eq_ok_iff, Config.load_outcome_eq_ok_iff, configFound_given_iff hargs]
    · rw [outcome_pure, Except.ok.injEq]
  | none =>
    dsimp only
    rw [outcome_bind_eq_ok_iff (Keeps.mapError (Config.keeps_loadDefault env) _)]
    refine exists_congr fun file => and_congr ?_ ?_
    · rw [outcome_mapError_eq_ok_iff, Config.loadDefault_outcome_eq_ok_iff hargs]
    · rw [outcome_pure, Except.ok.injEq]

theorem keeps_produce (config : Config) :
    (produce env config : LoggedT (StateM GuardedDisk) _ _).Keeps := by
  refine (Keeps.mapError SourcePaths.keeps_locate _).bind fun paths => ?_
  refine (keeps_ofLogged _).bind fun _ => ?_
  refine (Keeps.mapError (SourcePaths.keeps_read paths) _).bind fun texts => ?_
  refine (keeps_ofLogged _).bind fun overrides => ?_
  refine (keeps_ofLogged _).bind fun generated => ?_
  exact (keeps_ofLogged _).bind fun _ => keeps_pure _

/-- The text that is generated is the rendering of the table. -/
theorem generate_outcome_of_buildTable {sources : SourceTexts} {overrides : Overrides}
    {table : DecisionTable} (h : (buildTable sources overrides).outcome = .ok table)
    (artifact : Artifact) :
    (generate sources overrides artifact).outcome = .ok ⟨table, artifact.render table⟩ := by
  rw [generate, Logged.outcome_bind_eq_ok_iff]
  exact ⟨table, h, rfl⟩

/-- The overrides of a configuration are the built-in ones with its own put over them. -/
theorem Config.overrides_fst (c : Config) :
    c.overrides.1 = (Overrides.builtin.extend c.extensions).1 := by
  rw [overrides_eq_extend]

theorem produce_outcome_eq_ok_iff {config : Config} {generated : Generated} :
    (produce env config : LoggedT (StateM GuardedDisk) _ _).outcome g = .ok generated ↔
      ∃ (paths : SourcePaths) (texts : SourceTexts),
        (∀ source, InputFound env g source (config.inputs.path? source) (paths.path source)) ∧
        (∀ source, g.readText (paths.path source) = .ok (texts.text source)) ∧
        (generate texts (Overrides.builtin.extend config.extensions).1
          (Artifact.ofFormat (effectiveFormat config) config.output.functionName)).outcome =
            .ok generated := by
  have hreport : ∀ events, (Logged.reportAll events : Logged RunFailure Unit).outcome = .ok () :=
    fun _ => rfl
  have hoverrides : (reportOverrides config).outcome =
      .ok (Overrides.builtin.extend config.extensions).1 := congrArg Except.ok config.overrides_fst
  unfold produce
  simp only [outcome_bind_eq_ok_iff (Keeps.mapError SourcePaths.keeps_locate _),
    outcome_bind_eq_ok_iff (keeps_ofLogged _),
    outcome_bind_eq_ok_iff (Keeps.mapError (SourcePaths.keeps_read _) _),
    outcome_mapError_eq_ok_iff, SourcePaths.locate_outcome_eq_ok_iff,
    SourcePaths.read_outcome_eq_ok_iff, outcome_ofLogged, Logged.outcome_mapError_eq_ok_iff,
    outcome_pure, hreport, hoverrides, Except.ok.injEq, exists_eq_left', exists_eq_right,
    exists_and_left, exists_const, true_and]

theorem mergeInto_path? (file : Config) (source : Source) :
    (args.mergeInto file).inputs.path? source = chosenInput args file source := by
  cases source <;> rfl

/-- The overrides of a run with a configuration. -/
def runOverrides (file : Config) : Overrides := (Overrides.builtin.extend file.extensions).1

/-- What a run generates a dispatch from: the configuration, the headers and their texts. Whether
the run then goes on depends on its arguments. -/
structure Generates (env : Environment) (args : Arguments) (g : GuardedDisk) (file : Config)
    (paths : SourcePaths) (texts : SourceTexts) (generated : Generated) : Prop where
  config : ConfigFound env args g file
  located : ∀ source, InputFound env g source (chosenInput args file source) (paths.path source)
  read : ∀ source, g.readText (paths.path source) = .ok (texts.text source)
  produced : (generate texts (runOverrides file)
    (Artifact.ofFormat (chosenFormat args file) file.output.functionName)).outcome = .ok generated

namespace Generates

variable {file : Config} {paths : SourcePaths} {texts : SourceTexts} {generated : Generated}
  (h : Generates env args g file paths texts generated)

include h

theorem loadConfig_outcome :
    (loadConfig env args : LoggedT (StateM GuardedDisk) _ _).outcome g =
      .ok (args.mergeInto file) :=
  loadConfig_outcome_eq_ok_iff.2 ⟨file, h.config, rfl⟩

theorem produce_outcome :
    (produce env (args.mergeInto file) : LoggedT (StateM GuardedDisk) _ _).outcome g =
      .ok generated := by
  refine produce_outcome_eq_ok_iff.2 ⟨paths, texts, fun source => ?_, h.read, h.produced⟩
  exact (mergeInto_path? file source).symm ▸ h.located source

end Generates

/-- A run that prepares its output generates a dispatch. -/
theorem Prepares.generates {file : Config} {paths : SourcePaths} {texts : SourceTexts}
    {generated : Generated} (h : Prepares env args g file paths texts generated) :
    Generates env args g file paths texts generated :=
  ⟨h.config, h.located, h.read, h.produced⟩

theorem keeps_plan : (plan env args : LoggedT (StateM GuardedDisk) _ _).Keeps := by
  refine keeps_loadConfig.bind fun config => (keeps_produce config).bind fun generated => ?_
  dsimp only
  split
  · exact keeps_ofLogged _
  · exact keeps_pure _

/-- The plan of a run succeeds exactly if everything is found, and then gives the chosen path and
the generated text. -/
theorem plan_outcome_eq_ok_iff {path text : String} :
    (plan env args : LoggedT (StateM GuardedDisk) _ _).outcome g = .ok (path, text) ↔
      ∃ file paths texts generated, Prepares env args g file paths texts generated ∧
        chosenOutput args file = path ∧ generated.output = text := by
  have hallowed : ∀ generated : Generated,
      (args.denyUnresolved && generated.table.diagnostics.length != 0) = true ↔
        ¬ (args.denyUnresolved = true → generated.table.diagnostics = []) := by
    intro generated
    simp
  unfold plan
  rw [outcome_bind_eq_ok_iff keeps_loadConfig]
  constructor
  · rintro ⟨config, hconfig, h⟩
    obtain ⟨file, hfile, rfl⟩ := loadConfig_outcome_eq_ok_iff.1 hconfig
    obtain ⟨generated, hgenerated, h⟩ := (outcome_bind_eq_ok_iff (keeps_produce _)).1 h
    obtain ⟨paths, texts, hpaths, htexts, hproduced⟩ := produce_outcome_eq_ok_iff.1 hgenerated
    dsimp only at h
    split at h
    · cases h
    · next hdeny =>
      rw [hallowed, not_not] at hdeny
      cases h
      refine ⟨file, paths, texts, generated, ⟨hfile, ?_, htexts, hproduced, hdeny⟩, rfl, rfl⟩
      exact fun source => mergeInto_path? file source ▸ hpaths source
  · rintro ⟨file, paths, texts, generated, h, rfl, rfl⟩
    refine ⟨_, h.generates.loadConfig_outcome, ?_⟩
    refine (outcome_bind_eq_ok_iff (keeps_produce _)).2 ⟨generated, h.generates.produce_outcome, ?_⟩
    dsimp only
    rw [if_neg fun hdeny => (hallowed generated).1 hdeny h.allowed]
    rfl

/-! ## Runs -/

/-- How a run on a disk ends. -/
def runOutcome (env : Environment) (args : Arguments) (g : GuardedDisk) : Except RunFailure Unit :=
  (run env args : LoggedT (StateM GuardedDisk) RunFailure Unit).outcome g

/-- The disk after a run. -/
def diskAfter (env : Environment) (args : Arguments) (g : GuardedDisk) : GuardedDisk :=
  (run env args : LoggedT (StateM GuardedDisk) RunFailure Unit).after g

/-- A run is its plan and what it does with its output file. -/
theorem run_eq_plan_bind_finish :
    (run env args : LoggedT (StateM GuardedDisk) RunFailure Unit) =
      plan env args >>= finish env args := by
  unfold plan run
  rw [LoggedT.bind_assoc]
  refine congrArg _ (funext fun config => ?_)
  rw [LoggedT.bind_assoc]
  refine congrArg _ (funext fun generated => ?_)
  dsimp only
  split
  · rw [fail_bind]
  · rw [LoggedT.pure_bind, finish]

/-- A run changes no more than what it does with its output file. -/
theorem run_after :
    (run env args : LoggedT (StateM GuardedDisk) _ _).after g =
      match (plan env args : LoggedT (StateM GuardedDisk) _ _).outcome g with
      | .error _ => g
      | .ok output => (finish env args output : LoggedT (StateM GuardedDisk) _ _).after g := by
  rw [run_eq_plan_bind_finish, after_bind keeps_plan]
  cases (plan env args : LoggedT (StateM GuardedDisk) _ _).outcome g <;> rfl

theorem run_outcome_eq_ok_iff :
    (run env args : LoggedT (StateM GuardedDisk) _ _).outcome g = .ok () ↔
      ∃ output, (plan env args : LoggedT (StateM GuardedDisk) _ _).outcome g = .ok output ∧
        (finish env args output : LoggedT (StateM GuardedDisk) _ _).outcome g = .ok () := by
  rw [run_eq_plan_bind_finish, outcome_bind_eq_ok_iff keeps_plan]

/-! ## Output files -/

section Output

variable {path text : String}

theorem isUpToDate_on (g : GuardedDisk) :
    (OutputFile.isUpToDate path text : StateM GuardedDisk (Except FileError Bool)) g =
      (match g.readText path with
        | .ok existing => .ok (existing == text)
        | .error .notFound => .ok false
        | .error e => .error e, g) := by
  unfold OutputFile.isUpToDate
  rw [GuardedDisk.bind_on, GuardedDisk.readText_on]
  cases g.readText path with
  | ok existing => rfl
  | error e => cases e <;> rfl

theorem keeps_checkOutput : (checkOutput path text : LoggedT (StateM GuardedDisk) _ _).Keeps := by
  unfold checkOutput
  refine (keeps_ofExcept fun g => by rw [isUpToDate_on]).bind fun fresh => ?_
  split
  · exact keeps_ofLogged _
  · exact keeps_ofLogged _

/-- The check succeeds exactly if the output file can be read and holds the text. -/
theorem checkOutput_outcome_eq_ok_iff :
    (checkOutput path text : LoggedT (StateM GuardedDisk) _ _).outcome g = .ok () ↔
      g.readText path = .ok text := by
  have hfresh : ∀ fresh : Bool,
      (if fresh then .report (.upToDate path) else .fail (.outOfDate path) :
        LoggedT (StateM GuardedDisk) RunFailure Unit).outcome g = .ok () ↔ fresh = true := by
    intro fresh
    cases fresh with
    | true => exact ⟨fun _ => rfl, fun _ => rfl⟩
    | false =>
      constructor
      · intro h
        cases h
      · intro h
        cases h
  unfold checkOutput
  rw [outcome_bind_eq_ok_iff (keeps_ofExcept fun g => by rw [isUpToDate_on])]
  simp only [outcome_ofExcept_eq_ok_iff, isUpToDate_on, hfresh, exists_eq_right]
  cases g.readText path with
  | ok existing => simp
  | error e => cases e <;> simp

theorem writeOutput_on_error {e : FileError} {g' : GuardedDisk}
    (h : g.replace env.processId path text = (.error e, g')) :
    (writeOutput env path text : LoggedT (StateM GuardedDisk) _ _).on g =
      (⟨[], .error (.unwritableOutput path e)⟩, g') := by
  have hwrite := ofExcept_on_error (f := RunFailure.unwritableOutput path) h
  unfold writeOutput
  rw [on_bind_error (by rw [outcome, hwrite]), after, hwrite]

theorem writeOutput_on_ok {g' : GuardedDisk}
    (h : g.replace env.processId path text = (.ok (), g')) :
    (writeOutput env path text : LoggedT (StateM GuardedDisk) _ _).on g =
      (⟨[.wrote path], .ok ()⟩, g') := by
  have hwrite := ofExcept_on_ok (f := RunFailure.unwritableOutput path) h
  unfold writeOutput
  rw [on_bind_ok (by rw [outcome, hwrite]), after, hwrite]
  rfl

end Output

end KeyDispatch
