import KeyDispatch.Proofs.RunChange

/-!
# Checking and writing

A run that writes and a run that checks come to the same plan, compare and write the same text, and
use the same path. As long as the output file is none of the files that a run reads, writing it
changes nothing that the next run finds, so that the check succeeds after a run that wrote, and
writing once more changes nothing.
-/

namespace KeyDispatch

open LoggedT

variable {env : Environment} {args : Arguments} {g g' : GuardedDisk} {file : Config}

/-! ## What a run reads -/

/-- The paths at which a run looks for its configuration. -/
def configPaths (env : Environment) (args : Arguments) : List String :=
  args.config.toList ++ env.configPath?.toList

/-- The paths at which a run looks for the headers: those that are chosen and the usual ones. -/
def inputPaths (env : Environment) (args : Arguments) (file : Config) : List String :=
  Source.all.flatMap fun source =>
    (chosenInput args file source).toList ++ SourcePaths.candidates env source

/-- Two disks show the same at the paths. -/
def SameAt (paths : List String) (g g' : GuardedDisk) : Prop :=
  ∀ path ∈ paths, g'.isFile path = g.isFile path ∧ g'.pathExists path = g.pathExists path ∧
    ∀ text, g'.readText path = .ok text ↔ g.readText path = .ok text

theorem SameAt.symm {paths : List String} (h : SameAt paths g g') : SameAt paths g' g :=
  fun path hpath => ⟨(h path hpath).1.symm, (h path hpath).2.1.symm,
    fun text => ((h path hpath).2.2 text).symm⟩

/-- A file put where no path leads changes nothing at the paths. -/
theorem sameAt_put {paths : List String} {l : Location} {content : ByteArray}
    (hnode : g.disk.node? l ≠ some .directory)
    (hapart : ∀ path ∈ paths, g.disk.resolve path ≠ .ok l) :
    SameAt paths g (g.put l (.file content)) := by
  intro path hpath
  refine ⟨?_, ?_, fun text => ?_⟩
  · exact congrArg (_ && ·) (Disk.isFile_put hnode (hapart path hpath))
  · exact congrArg (_ && ·) (Disk.pathExists_put hnode (hapart path hpath))
  · unfold GuardedDisk.readText
    rw [show (g.put l (.file content)).refusal? = g.refusal? from rfl]
    split
    · rfl
    · exact Disk.readText_put hnode (hapart path hpath)

/-- The configuration is found again where its places are the same. -/
theorem ConfigFound.of_sameAt (hsame : SameAt (configPaths env args) g g')
    (h : ConfigFound env args g file) : ConfigFound env args g' file := by
  cases h with
  | @given path text _ hpath htext hfile =>
    have hat := hsame path (List.mem_append_left _ (by simp [hpath]))
    exact .given hpath ((hat.2.2 _).2 htext) hfile
  | @usual path text _ hargs hpath hexists htext hfile =>
    have hat := hsame path (List.mem_append_right _ (by simp [hpath]))
    exact .usual hargs hpath (hat.2.1.trans hexists) ((hat.2.2 _).2 htext) hfile
  | unset hargs hnone =>
    refine .unset hargs fun path hpath => ?_
    have hat := hsame path (List.mem_append_right _ (by simpa using hpath))
    exact hat.2.1.trans (hnone path hpath)

theorem mem_inputPaths {source : Source} {path : String}
    (h : path ∈ (chosenInput args file source).toList ++ SourcePaths.candidates env source) :
    path ∈ inputPaths env args file :=
  List.mem_flatMap.2 ⟨source, by cases source <;> decide, h⟩

theorem InputFound.mem_inputPaths {source : Source} {path : String}
    (h : InputFound env g source (chosenInput args file source) path) :
    path ∈ inputPaths env args file := by
  suffices hmem : path ∈ (chosenInput args file source).toList ++ SourcePaths.candidates env source
    from KeyDispatch.mem_inputPaths hmem
  cases hchosen : chosenInput args file source with
  | some chosen =>
    rw [hchosen, inputFound_some_iff] at h
    exact List.mem_append_left _ (by simp [h.2])
  | none =>
    rw [hchosen, inputFound_none_iff] at h
    exact List.mem_append_right _ (List.mem_of_find?_eq_some h)

/-- A header is found again where its places are the same. -/
theorem InputFound.of_sameAt {source : Source} {path : String}
    (hsame : SameAt (inputPaths env args file) g g')
    (h : InputFound env g source (chosenInput args file source) path) :
    InputFound env g' source (chosenInput args file source) path := by
  cases hchosen : chosenInput args file source with
  | some chosen =>
    have hmem := h.mem_inputPaths
    rw [hchosen, inputFound_some_iff] at h
    rw [inputFound_some_iff, ← h.2]
    refine ⟨?_, rfl⟩
    rw [h.2, (hsame path hmem).1, ← h.2, h.1]
  | none =>
    rw [hchosen, inputFound_none_iff] at h
    have hcandidates : ∀ candidate ∈ SourcePaths.candidates env source,
        g'.isFile candidate = g.isFile candidate := fun candidate hcandidate =>
      (hsame candidate (KeyDispatch.mem_inputPaths (List.mem_append_right _ hcandidate))).1
    rw [inputFound_none_iff, ← h, ← List.head?_filter, ← List.head?_filter,
      List.filter_congr hcandidates]

/-- All that a run prepares is found again where its places are the same. -/
theorem Prepares.of_sameAt {paths : SourcePaths} {texts : SourceTexts} {generated : Generated}
    (hconfig : SameAt (configPaths env args) g g')
    (hinputs : SameAt (inputPaths env args file) g g')
    (h : Prepares env args g file paths texts generated) :
    Prepares env args g' file paths texts generated where
  config := h.config.of_sameAt hconfig
  located source := (h.located source).of_sameAt hinputs
  read source := ((hinputs _ (h.located source).mem_inputPaths).2.2 _).2 (h.read source)
  produced := h.produced
  allowed := h.allowed

/-! ## Two runs -/

/-- With the same plan a check succeeds exactly if the output file holds the text. -/
theorem runOutcome_check_iff {path text : String}
    (hplan : (plan env args : LoggedT (StateM GuardedDisk) _ _).outcome g = .ok (path, text)) :
    runOutcome env { args with check := true } g = .ok () ↔ g.readText path = .ok text :=
  runOutcome_of_check hplan rfl

/-- The output path leads to none of the files that a run looks at. -/
def OutputApart (env : Environment) (args : Arguments) (g : GuardedDisk) : Prop :=
  ∀ file, ConfigFound env args g file →
    ∀ l, g.disk.resolve (chosenOutput args file) = .ok l →
      ∀ path ∈ configPaths env args ++ inputPaths env args file, g.disk.resolve path ≠ .ok l

/-- Reading the output file is not refused. -/
def OutputReadable (env : Environment) (args : Arguments) (g : GuardedDisk) : Prop :=
  ∀ file, ConfigFound env args g file → g.refusal? (.read (chosenOutput args file)) = none

/-- Where the output file is none of those that a run looks at, replacing it changes nothing that
the run finds. -/
theorem Prepares.put {paths : SourcePaths} {texts : SourceTexts} {generated : Generated}
    {l : Location} (content : ByteArray) (hapart : OutputApart env args g)
    (h : Prepares env args g file paths texts generated)
    (hleads : g.disk.resolve (chosenOutput args file) = .ok l)
    (hnode : g.disk.node? l ≠ some .directory) :
    Prepares env args (g.put l (.file content)) file paths texts generated := by
  have hpaths := hapart file h.config l hleads
  exact h.of_sameAt (sameAt_put hnode fun path hpath => hpaths path (List.mem_append_left _ hpath))
    (sameAt_put hnode fun path hpath => hpaths path (List.mem_append_right _ hpath))

/-- After a run that wrote, a further run writes the same and changes nothing, and a check succeeds
if the output file may be read. -/
theorem run_again (hapart : OutputApart env args g) (hfree : TemporaryFree env args g)
    (hcheck : args.check = false) (hok : runOutcome env args g = .ok ()) :
    runOutcome env args (diskAfter env args g) = .ok () ∧
      diskAfter env args (diskAfter env args g) = diskAfter env args g ∧
      (OutputReadable env args g →
        runOutcome env { args with check := true } (diskAfter env args g) = .ok ()) := by
  obtain ⟨file, paths, texts, generated, l, hprepares, hreplaceable, hafter⟩ :=
    replaceable_of_ok hfree hok hcheck
  obtain ⟨hleads, hholds, -⟩ := hreplaceable.readText_put
  have hnode := hreplaceable.node?_ne_directory
  have hplan := plan_outcome_eq_ok_iff.2 ⟨file, paths, texts, generated,
    hprepares.put generated.output.toUTF8 hapart hleads hnode, rfl, rfl⟩
  have hreplace := GuardedDisk.replace_of_replaceable
    (hreplaceable.put generated.output.toUTF8)
    ((hfree file hprepares.config).put hreplaceable generated.output.toUTF8)
  rw [hafter]
  refine ⟨?_, ?_, fun hreadable => ?_⟩
  · rw [runOutcome_of_replace hplan hcheck, hreplace]
  · rw [diskAfter_of_replace hplan hcheck, hreplace]
    exact GuardedDisk.put_eq_self (Disk.node?_put_self (Disk.ne_nil_of_node? hnode))
  · rw [runOutcome_check_iff hplan, GuardedDisk.readText]
    rw [show (g.put l (.file generated.output.toUTF8)).refusal? = g.refusal? from rfl,
      hreadable file hprepares.config]
    exact hholds

/-- Where a check succeeds, the output file holds just what a writing run would write, so that a
writing run that succeeds changes nothing. -/
theorem holds_of_check (hfree : TemporaryFree env args g) (hcheck : args.check = false)
    (hok : runOutcome env { args with check := true } g = .ok ()) :
    ∃ file paths texts generated, Prepares env args g file paths texts generated ∧
      g.readText (chosenOutput args file) = .ok generated.output ∧
      (runOutcome env args g = .ok () → diskAfter env args g = g) := by
  obtain ⟨⟨path, text⟩, hplan, -⟩ := run_outcome_eq_ok_iff.1 hok
  change (plan env args : LoggedT (StateM GuardedDisk) _ _).outcome g = .ok (path, text) at hplan
  have hread := (runOutcome_check_iff hplan).1 hok
  obtain ⟨file, paths, texts, generated, hprepares, rfl, rfl⟩ := plan_outcome_eq_ok_iff.1 hplan
  refine ⟨file, paths, texts, generated, hprepares, hread, fun hwritten => ?_⟩
  obtain ⟨file', paths', texts', generated', l, hprepares', hreplaceable, hafter⟩ :=
    replaceable_of_ok hfree hwritten hcheck
  -- the two runs have one plan, so they have one path and one text
  have hplan' := plan_outcome_eq_ok_iff.2 ⟨file', paths', texts', generated', hprepares', rfl, rfl⟩
  rw [hplan, Except.ok.injEq, Prod.mk.injEq] at hplan'
  rw [hafter, ← hplan'.2]
  rw [← hplan'.1] at hreplaceable
  exact GuardedDisk.put_eq_self_of_readText hread hreplaceable.readText_put.1

section Disk

variable {d : Disk} (hfree : TemporaryFree env args (.ofDisk d)) (hcheck : args.check = false)

include hfree hcheck

/-- On a disk that refuses nothing, after a run that wrote, a further run writes the same and
changes nothing, and a check succeeds. -/
theorem afterRun_again (hapart : OutputApart env args (.ofDisk d))
    (hok : d.runOutcome env args = .ok ()) :
    (d.afterRun env args).runOutcome env args = .ok () ∧
      (d.afterRun env args).afterRun env args = d.afterRun env args ∧
      (d.afterRun env args).runOutcome env { args with check := true } = .ok () := by
  rw [← runOutcome_ofDisk] at hok
  obtain ⟨hagain, hsame, hchecked⟩ := run_again hapart hfree hcheck hok
  rw [diskAfter_ofDisk, runOutcome_ofDisk] at hagain
  rw [diskAfter_ofDisk, diskAfter_ofDisk] at hsame
  have hcheckedAfter := hchecked fun file _ => rfl
  rw [diskAfter_ofDisk, runOutcome_ofDisk] at hcheckedAfter
  exact ⟨hagain, congrArg GuardedDisk.disk hsame, hcheckedAfter⟩

/-- On a disk that refuses nothing, where a check succeeds, a run that succeeds changes nothing. -/
theorem afterRun_of_checked (hchecked : d.runOutcome env { args with check := true } = .ok ())
    (hok : d.runOutcome env args = .ok ()) : d.afterRun env args = d := by
  rw [← runOutcome_ofDisk] at hchecked hok
  obtain ⟨file, paths, texts, generated, -, -, hsame⟩ := holds_of_check hfree hcheck hchecked
  have hafter := hsame hok
  rw [diskAfter_ofDisk] at hafter
  exact congrArg GuardedDisk.disk hafter

end Disk

/-- Checking and writing agree. After a run that wrote, a further run succeeds and changes nothing,
and a check succeeds, unless the disk refuses to read the output file. Where a check succeeds, the
output file holds what a run would write. On a disk that refuses nothing, all of this holds of the
runs on the disk itself. -/
theorem run_agreesWithCheck (hcheck : args.check = false) (hapart : OutputApart env args g)
    (hfree : TemporaryFree env args g) :
    (runOutcome env args g = .ok () →
      runOutcome env args (diskAfter env args g) = .ok () ∧
      diskAfter env args (diskAfter env args g) = diskAfter env args g ∧
      (OutputReadable env args g →
        runOutcome env { args with check := true } (diskAfter env args g) = .ok ())) ∧
    (runOutcome env { args with check := true } g = .ok () →
      ∃ file paths texts generated, Prepares env args g file paths texts generated ∧
        g.readText (chosenOutput args file) = .ok generated.output ∧
        (runOutcome env args g = .ok () → diskAfter env args g = g)) ∧
    ∀ d, g = .ofDisk d → d.runOutcome env args = .ok () →
      (d.afterRun env args).runOutcome env args = .ok () ∧
      (d.afterRun env args).afterRun env args = d.afterRun env args ∧
      (d.afterRun env args).runOutcome env { args with check := true } = .ok () ∧
      (d.runOutcome env { args with check := true } = .ok () → d.afterRun env args = d) := by
  refine ⟨run_again hapart hfree hcheck, holds_of_check hfree hcheck, ?_⟩
  rintro d rfl hok
  obtain ⟨hagain, hsame, hchecked⟩ := afterRun_again hfree hcheck hapart hok
  exact ⟨hagain, hsame, hchecked, fun h => afterRun_of_checked hfree hcheck h hok⟩

theorem outputApart_swapDisk : OutputApart bareEnvironment toolkitArguments swapDisk := by
  intro file hfile l hl
  obtain rfl := configFound_swapDisk.1 hfile
  have hleads : swapDisk.disk.resolve "qtkey_to_keysym.rs" = .ok ["qtkey_to_keysym.rs"] := by decide
  rw [chosenOutput_toolkitArguments, hleads] at hl
  cases hl
  decide

/-- After a run on `swapDisk` a further run changes nothing and a check succeeds. -/
theorem run_agreesWithCheck_swapDisk :
    toolkitArguments.check = false ∧ OutputApart bareEnvironment toolkitArguments swapDisk ∧
      TemporaryFree bareEnvironment toolkitArguments swapDisk ∧
      runOutcome bareEnvironment toolkitArguments
        (diskAfter bareEnvironment toolkitArguments swapDisk) = .ok () ∧
      diskAfter bareEnvironment toolkitArguments
        (diskAfter bareEnvironment toolkitArguments swapDisk) =
          diskAfter bareEnvironment toolkitArguments swapDisk ∧
      runOutcome bareEnvironment { toolkitArguments with check := true }
        (diskAfter bareEnvironment toolkitArguments swapDisk) = .ok () ∧
      (swapDisk.disk.afterRun bareEnvironment toolkitArguments).runOutcome bareEnvironment
        { toolkitArguments with check := true } = .ok () := by
  obtain ⟨hwritten, -, hplain⟩ :=
    run_agreesWithCheck rfl outputApart_swapDisk temporaryFree_swapDisk
  obtain ⟨hagain, hsame, hchecked⟩ := hwritten runOutcome_swapDisk
  exact ⟨rfl, outputApart_swapDisk, temporaryFree_swapDisk, hagain, hsame,
    hchecked fun file hfile => rfl, (hplain swapDisk.disk rfl runOutcome_disk_swapDisk).2.2.1⟩

end KeyDispatch
