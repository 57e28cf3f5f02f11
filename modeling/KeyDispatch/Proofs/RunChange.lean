import KeyDispatch.Proofs.RustMeaning
import KeyDispatch.Proofs.UnguardedDisk

/-!
# What a run changes

A run changes one file or none: the output file, if it succeeds and is not asked only to check it. A
run that fails leaves every file as it was. This holds on every disk on which nothing stands in the
way of the temporary file, also on one that refuses requests at any point. One refusal is beyond the
program: where the temporary file was made and its removal is refused too, that file stays. A disk
that refuses no removal, and so every disk that refuses nothing, is as it was.
-/

namespace KeyDispatch

open LoggedT

variable {env : Environment} {args : Arguments} {g : GuardedDisk}

/-- No file has the name of the temporary file beside the output file. -/
def TemporaryFree (env : Environment) (args : Arguments) (g : GuardedDisk) : Prop :=
  ∀ file, ConfigFound env args g file → g.TemporaryFree env.processId (chosenOutput args file)

/-- The temporary file beside the output file was made, and its removal refused. -/
def TemporaryLeft (env : Environment) (args : Arguments) (g after : GuardedDisk) : Prop :=
  ∃ file directory name, ConfigFound env args g file ∧
    Path.split? (chosenOutput args file) = some (directory, name) ∧
    g.LeftBehind after (OutputFile.temporary env.processId directory name)

/-- A run that is asked to check changes nothing. -/
theorem diskAfter_of_check (hcheck : args.check = true) : diskAfter env args g = g := by
  rw [diskAfter, run_after]
  split
  · rfl
  · rw [finish, if_pos hcheck]
    exact keeps_checkOutput g

/-- A run without a plan fails and changes nothing. -/
theorem diskAfter_of_plan_error {e : RunFailure}
    (hplan : (plan env args : LoggedT (StateM GuardedDisk) _ _).outcome g = .error e) :
    diskAfter env args g = g := by
  rw [diskAfter, run_after, hplan]

section Planned

variable {path text : String}
  (hplan : (plan env args : LoggedT (StateM GuardedDisk) _ _).outcome g = .ok (path, text))

include hplan

theorem runOutcome_of_check (hcheck : args.check = true) :
    runOutcome env args g = .ok () ↔ g.readText path = .ok text := by
  rw [runOutcome, run_outcome_eq_ok_iff, hplan]
  simp only [Except.ok.injEq, exists_eq_left', finish, hcheck, if_true]
  exact checkOutput_outcome_eq_ok_iff

variable (hcheck : args.check = false)

include hcheck

/-- A planned run ends as the replacement of its output file does. -/
theorem runOutcome_of_replace :
    runOutcome env args g = .ok () ↔ (g.replace env.processId path text).1 = .ok () := by
  rw [runOutcome, run_outcome_eq_ok_iff, hplan]
  simp only [Except.ok.injEq, exists_eq_left', finish, hcheck, Bool.false_eq_true, if_false]
  cases hreplace : g.replace env.processId path text with
  | mk result after =>
    rw [outcome]
    cases result with
    | error e =>
      rw [writeOutput_on_error hreplace]
      simp
    | ok =>
      rw [writeOutput_on_ok hreplace]
      simp

theorem diskAfter_of_replace :
    diskAfter env args g = (g.replace env.processId path text).2 := by
  rw [diskAfter, run_after, hplan]
  simp only [finish, hcheck, Bool.false_eq_true, if_false]
  cases hreplace : g.replace env.processId path text with
  | mk result after =>
    rw [LoggedT.after]
    cases result with
    | error e => rw [writeOutput_on_error hreplace]
    | ok => rw [writeOutput_on_ok hreplace]

end Planned

/-- A run that fails changes nothing, unless the removal of its temporary file is refused. -/
theorem diskAfter_of_error (hfree : TemporaryFree env args g) {e : RunFailure}
    (he : runOutcome env args g = .error e) :
    diskAfter env args g = g ∨ TemporaryLeft env args g (diskAfter env args g) := by
  cases hcheck : args.check with
  | true => exact .inl (diskAfter_of_check hcheck)
  | false =>
    cases hplan : (plan env args : LoggedT (StateM GuardedDisk) _ _).outcome g with
    | error e => exact .inl (diskAfter_of_plan_error hplan)
    | ok output =>
      obtain ⟨path, text⟩ := output
      obtain ⟨file, paths, texts, generated, hprepares, rfl, rfl⟩ := plan_outcome_eq_ok_iff.1 hplan
      rw [diskAfter_of_replace hplan hcheck]
      obtain ⟨l, -, hreplace⟩ | ⟨failure, after, hreplace, hafter⟩ :=
        GuardedDisk.replace_cases (hfree file hprepares.config)
      · rw [(runOutcome_of_replace hplan hcheck).2 (by rw [hreplace])] at he
        cases he
      · rw [hreplace]
        refine hafter.imp_right ?_
        rintro ⟨directory, name, hsplit, hleft⟩
        exact ⟨file, directory, name, hprepares.config, hsplit, hleft⟩

/-- Where no removal is refused, a run that fails changes nothing. -/
theorem diskAfter_of_removesAll (hfree : TemporaryFree env args g) (hremoves : g.RemovesAll)
    {e : RunFailure} (he : runOutcome env args g = .error e) : diskAfter env args g = g := by
  rcases diskAfter_of_error hfree he with hsame | ⟨file, directory, name, -, -, hleft⟩
  · exact hsame
  · exact absurd hleft hremoves.not_leftBehind

/-- A run that succeeds and is not asked to check replaces its output file. -/
theorem replaceable_of_ok (hfree : TemporaryFree env args g) (hok : runOutcome env args g = .ok ())
    (hcheck : args.check = false) :
    ∃ file paths texts generated l, Prepares env args g file paths texts generated ∧
      g.Replaceable env.processId (chosenOutput args file) generated.output l ∧
      diskAfter env args g = g.put l (.file generated.output.toUTF8) := by
  obtain ⟨⟨path, text⟩, hplan, -⟩ := run_outcome_eq_ok_iff.1 hok
  obtain ⟨file, paths, texts, generated, hprepares, rfl, rfl⟩ := plan_outcome_eq_ok_iff.1 hplan
  rw [runOutcome_of_replace hplan hcheck] at hok
  rw [diskAfter_of_replace hplan hcheck]
  obtain ⟨l, hreplaceable, hreplace⟩ | ⟨failure, after, hreplace, -⟩ :=
    GuardedDisk.replace_cases (hfree file hprepares.config)
  · refine ⟨file, paths, texts, generated, l, hprepares, hreplaceable, ?_⟩
    rw [hreplace]
  · rw [hreplace] at hok
    cases hok

section Disk

variable {d : Disk}

/-- A check changes nothing on a disk that refuses nothing. -/
theorem afterRun_of_check (hcheck : args.check = true) : d.afterRun env args = d := by
  have hafter := diskAfter_ofDisk env args d
  rw [diskAfter_of_check hcheck] at hafter
  exact (congrArg GuardedDisk.disk hafter).symm

variable (hfree : TemporaryFree env args (.ofDisk d))

include hfree

/-- A run that fails leaves a disk that refuses nothing as it was. -/
theorem afterRun_of_error {e : RunFailure} (he : d.runOutcome env args = .error e) :
    d.afterRun env args = d := by
  rw [← runOutcome_ofDisk] at he
  have hafter := diskAfter_ofDisk env args d
  rw [diskAfter_of_removesAll hfree (fun _ => rfl) he] at hafter
  exact (congrArg GuardedDisk.disk hafter).symm

/-- A run that succeeds and is not asked to check puts the generated text at the output path. -/
theorem afterRun_of_ok (hok : d.runOutcome env args = .ok ()) (hcheck : args.check = false) :
    ∃ file paths texts generated l, Prepares env args (.ofDisk d) file paths texts generated ∧
      d.resolve (chosenOutput args file) = .ok l ∧
      d.afterRun env args = d.put l (.file generated.output.toUTF8) := by
  rw [← runOutcome_ofDisk] at hok
  have hafter := diskAfter_ofDisk env args d
  obtain ⟨file, paths, texts, generated, l, hprepares, hreplaceable, hput⟩ :=
    replaceable_of_ok hfree hok hcheck
  rw [hput] at hafter
  exact ⟨file, paths, texts, generated, l, hprepares, hreplaceable.readText_put.1,
    (congrArg GuardedDisk.disk hafter).symm⟩

end Disk

/-- A run changes one file or none: nothing if it fails or is asked to check, and else the output
file alone, which then holds the text generated from the chosen headers. Of a run that fails there
stays at most a temporary file whose removal is refused, so nothing on a disk that refuses no
removal. The same holds of the run on a disk that refuses nothing at all. -/
theorem run_changesOnlyOutput (hfree : TemporaryFree env args g) :
    (∀ e, runOutcome env args g = .error e →
      diskAfter env args g = g ∨ TemporaryLeft env args g (diskAfter env args g)) ∧
    (args.check = true → diskAfter env args g = g) ∧
    (runOutcome env args g = .ok () → args.check = false →
      ∃ file paths texts generated l, Prepares env args g file paths texts generated ∧
        g.disk.resolve (chosenOutput args file) = .ok l ∧
        diskAfter env args g = g.put l (.file generated.output.toUTF8) ∧
        (diskAfter env args g).disk.readText (chosenOutput args file) = .ok generated.output ∧
        ∀ k, k ≠ l → (diskAfter env args g).disk.node? k = g.disk.node? k) ∧
    (g.RemovesAll → ∀ e, runOutcome env args g = .error e → diskAfter env args g = g) ∧
    ∀ d, g = .ofDisk d →
      (∀ e, d.runOutcome env args = .error e → d.afterRun env args = d) ∧
      (args.check = true → d.afterRun env args = d) ∧
      (d.runOutcome env args = .ok () → args.check = false →
        ∃ file paths texts generated l, Prepares env args g file paths texts generated ∧
          d.resolve (chosenOutput args file) = .ok l ∧
          d.afterRun env args = d.put l (.file generated.output.toUTF8)) := by
  refine ⟨fun e he => diskAfter_of_error hfree he, diskAfter_of_check, fun hok hcheck => ?_,
    fun hremoves e he => diskAfter_of_removesAll hfree hremoves he, ?_⟩
  · obtain ⟨file, paths, texts, generated, l, hprepares, hreplaceable, hafter⟩ :=
      replaceable_of_ok hfree hok hcheck
    obtain ⟨hleads, hholds, hothers⟩ := hreplaceable.readText_put
    rw [hafter]
    exact ⟨file, paths, texts, generated, l, hprepares, hleads, rfl, hholds, hothers⟩
  · rintro d rfl
    exact ⟨fun e he => afterRun_of_error hfree he, afterRun_of_check, afterRun_of_ok hfree⟩

/-- A disk with headers in the working directory. -/
def headerDisk (texts : SourceTexts) : GuardedDisk :=
  .ofDisk ⟨[(["keysymdef.h"], .file texts.keysymdef.toUTF8),
    (["XF86keysym.h"], .file texts.vendor.toUTF8),
    (["qnamespace.h"], .file texts.toolkit.toUTF8)], []⟩

theorem readText_headerDisk (texts : SourceTexts) (source : Source) :
    (headerDisk texts).readText
      (SourcePaths.path ⟨"keysymdef.h", "XF86keysym.h", "qnamespace.h"⟩ source) =
        .ok (texts.text source) := by
  have hnode : ∀ path text l, (headerDisk texts).disk.resolve path = .ok l →
      Path.endsInSlash path = false → (headerDisk texts).disk.node? l = some (.file text.toUTF8) →
      (headerDisk texts).disk.readText path = .ok text :=
    fun path text l hl hslash hnode =>
      Disk.readText_eq_ok_iff.2 ⟨l, Disk.look_eq_ok_iff.2 ⟨hl, hnode, .inr hslash⟩⟩
  cases source with
  | keysymdef => exact hnode "keysymdef.h" _ ["keysymdef.h"] rfl (by decide) rfl
  | vendor => exact hnode "XF86keysym.h" _ ["XF86keysym.h"] rfl (by decide) rfl
  | toolkit => exact hnode "qnamespace.h" _ ["qnamespace.h"] rfl (by decide) rfl

/-- A disk with the headers of `swapHeaders` in the working directory. -/
def swapDisk : GuardedDisk :=
  .ofDisk ⟨[(["keysymdef.h"], .file swapHeaders.keysymdef.toUTF8),
    (["XF86keysym.h"], .file swapHeaders.vendor.toUTF8),
    (["qnamespace.h"], .file swapHeaders.toolkit.toUTF8)], []⟩

/-- Surroundings without a directory of configurations. -/
def bareEnvironment : Environment := ⟨none, none, none, 7⟩

/-- The header of the toolkit is named, and the others are looked for. -/
def toolkitArguments : Arguments := { Arguments.none with toolkit := some "qnamespace.h" }

/-- The dispatch generated from `swapHeaders`. -/
def swapGenerated : Generated :=
  ⟨swapTable, Artifact.render (.rustModule RustModule.standard) swapTable⟩

theorem configFound_swapDisk {file : Config} :
    ConfigFound bareEnvironment toolkitArguments swapDisk file ↔ file = Config.default :=
  configFound_unset_iff rfl nofun

theorem chosenOutput_toolkitArguments :
    chosenOutput toolkitArguments Config.default = "qtkey_to_keysym.rs" := rfl

theorem temporaryFree_swapDisk : TemporaryFree bareEnvironment toolkitArguments swapDisk := by
  intro file hfile directory name hsplit
  obtain rfl := configFound_swapDisk.1 hfile
  have hparts : Path.split? "qtkey_to_keysym.rs" = some ("", "qtkey_to_keysym.rs") := by decide
  rw [chosenOutput_toolkitArguments, hparts] at hsplit
  cases hsplit
  decide

theorem readText_swapDisk (source : Source) :
    swapDisk.readText (SourcePaths.path ⟨"keysymdef.h", "XF86keysym.h", "qnamespace.h"⟩ source) =
      .ok (swapHeaders.text source) := readText_headerDisk swapHeaders source

theorem generate_swapHeaders :
    (generate swapHeaders Overrides.builtin (.rustModule RustModule.standard)).outcome =
      .ok swapGenerated :=
  generate_outcome_of_buildTable buildTable_swapHeaders _

theorem prepares_swapDisk :
    Prepares bareEnvironment toolkitArguments swapDisk Config.default
      ⟨"keysymdef.h", "XF86keysym.h", "qnamespace.h"⟩ swapHeaders swapGenerated where
  config := configFound_swapDisk.2 rfl
  located
    | .keysymdef => .usual (by decide)
    | .vendor => .usual (by decide)
    | .toolkit => .chosen (by decide)
  read := readText_swapDisk
  produced := by
    have hoverrides : Config.default.overrides.1 = Overrides.builtin := rfl
    rw [← Config.overrides_fst, hoverrides]
    exact generate_swapHeaders
  allowed h := by cases h

theorem replaceable_swapDisk (text : String) :
    swapDisk.Replaceable 7 "qtkey_to_keysym.rs" text ["qtkey_to_keysym.rs"] :=
  ⟨"", "qtkey_to_keysym.rs", ["qtkey_to_keysym.rs.7.tmp"], by decide, rfl, rfl, by decide,
    by decide⟩

theorem runOutcome_swapDisk : runOutcome bareEnvironment toolkitArguments swapDisk = .ok () := by
  have hplan : (plan bareEnvironment toolkitArguments : LoggedT (StateM GuardedDisk) _ _).outcome
      swapDisk = .ok ("qtkey_to_keysym.rs", swapGenerated.output) :=
    plan_outcome_eq_ok_iff.2
      ⟨_, _, _, _, prepares_swapDisk, chosenOutput_toolkitArguments, rfl⟩
  have hfree := temporaryFree_swapDisk _ prepares_swapDisk.config
  rw [chosenOutput_toolkitArguments] at hfree
  have hreplace := GuardedDisk.replace_of_replaceable
    (replaceable_swapDisk swapGenerated.output) hfree
  rw [runOutcome_of_replace hplan rfl]
  exact congrArg Prod.fst hreplace

theorem runOutcome_disk_swapDisk :
    swapDisk.disk.runOutcome bareEnvironment toolkitArguments = .ok () :=
  (runOutcome_ofDisk bareEnvironment toolkitArguments swapDisk.disk).symm.trans runOutcome_swapDisk

/-- A run on `swapDisk` succeeds and writes its output file alone. -/
theorem run_changesOnlyOutput_swapDisk :
    TemporaryFree bareEnvironment toolkitArguments swapDisk ∧
      runOutcome bareEnvironment toolkitArguments swapDisk = .ok () ∧
      (∃ file paths texts generated l,
        Prepares bareEnvironment toolkitArguments swapDisk file paths texts generated ∧
        swapDisk.disk.resolve (chosenOutput toolkitArguments file) = .ok l ∧
        (diskAfter bareEnvironment toolkitArguments swapDisk).disk.readText
          (chosenOutput toolkitArguments file) = .ok generated.output ∧
        ∀ k, k ≠ l → (diskAfter bareEnvironment toolkitArguments swapDisk).disk.node? k =
          swapDisk.disk.node? k) ∧
      ∃ file paths texts generated l,
        Prepares bareEnvironment toolkitArguments swapDisk file paths texts generated ∧
        swapDisk.disk.resolve (chosenOutput toolkitArguments file) = .ok l ∧
        swapDisk.disk.afterRun bareEnvironment toolkitArguments =
          swapDisk.disk.put l (.file generated.output.toUTF8) := by
  obtain ⟨-, -, hwritten, -, hplain⟩ := run_changesOnlyOutput temporaryFree_swapDisk
  obtain ⟨file, paths, texts, generated, l, hprepares, hleads, -, hholds, hothers⟩ :=
    hwritten runOutcome_swapDisk rfl
  exact ⟨temporaryFree_swapDisk, runOutcome_swapDisk,
    ⟨file, paths, texts, generated, l, hprepares, hleads, hholds, hothers⟩,
    (hplain swapDisk.disk rfl).2.2 runOutcome_disk_swapDisk rfl⟩

end KeyDispatch
