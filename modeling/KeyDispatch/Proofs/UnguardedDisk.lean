import KeyDispatch.Proofs.RunPlan

/-!
# Disks that refuse nothing

A guarded disk that refuses nothing is a disk: a run on it reports, answers and changes what the run
on the disk does (`mirrors_run`). What holds of every guarded disk so holds of every disk.
-/

namespace KeyDispatch

open LoggedT

variable {α β ε δ : Type}

/-- The step `y` does on a guarded disk that refuses nothing what `x` does on the disk. -/
def Mirrors (x : StateM Disk α) (y : StateM GuardedDisk α) : Prop :=
  ∀ d, y (.ofDisk d) = ((x d).1, .ofDisk (x d).2)

namespace Mirrors

theorem pure (a : α) : Mirrors (Pure.pure a) (Pure.pure a) := fun _ => rfl

theorem bind {x : StateM Disk α} {y : StateM GuardedDisk α} {f : α → StateM Disk β}
    {h : α → StateM GuardedDisk β} (hx : Mirrors x y) (hf : ∀ a, Mirrors (f a) (h a)) :
    Mirrors (x >>= f) (y >>= h) := by
  intro d
  show h (y (.ofDisk d)).1 (y (.ofDisk d)).2 = _
  rw [hx d]
  exact hf (x d).1 (x d).2

/-! ## Operations -/

theorem isFile (path : String) : Mirrors (FileStore.isFile path) (FileStore.isFile path) :=
  fun _ => rfl

theorem pathExists (path : String) :
    Mirrors (FileStore.pathExists path) (FileStore.pathExists path) :=
  fun _ => rfl

theorem readText (path : String) : Mirrors (FileStore.readText path) (FileStore.readText path) :=
  fun _ => rfl

theorem adopt (f : Disk → Except FileError Disk) :
    Mirrors (Disk.change f) fun g => g.adopt (f g.disk) := by
  intro d
  show GuardedDisk.adopt (.ofDisk d) (f d) = _
  unfold Disk.change
  cases f d <;> rfl

theorem writeText (path text : String) :
    Mirrors (FileStore.writeText path text) (FileStore.writeText path text) :=
  adopt fun d => d.writeText path text

theorem rename (old new : String) :
    Mirrors (FileStore.rename old new) (FileStore.rename old new) :=
  adopt fun d => d.rename old new

theorem remove (path : String) : Mirrors (FileStore.remove path) (FileStore.remove path) :=
  adopt fun d => d.remove path

end Mirrors

/-- The same for steps that report events and may fail. -/
def MirrorsLogged (x : LoggedT (StateM Disk) ε α) (y : LoggedT (StateM GuardedDisk) ε α) : Prop :=
  ∀ d, y.on (.ofDisk d) = ((x.on d).1, .ofDisk (x.on d).2)

namespace MirrorsLogged

theorem ofLogged (l : Logged ε α) : MirrorsLogged (.ofLogged l) (.ofLogged l) := fun _ => rfl

theorem pure (a : α) : MirrorsLogged (Pure.pure a : LoggedT _ ε α) (Pure.pure a) := fun _ => rfl

theorem bind {x : LoggedT (StateM Disk) ε α} {y : LoggedT (StateM GuardedDisk) ε α}
    {f : α → LoggedT (StateM Disk) ε β} {h : α → LoggedT (StateM GuardedDisk) ε β}
    (hx : MirrorsLogged x y) (hf : ∀ a, MirrorsLogged (f a) (h a)) :
    MirrorsLogged (x >>= f) (y >>= h) := by
  refine Mirrors.bind hx fun first => ?_
  split
  · exact Mirrors.pure _
  · exact Mirrors.bind (hf _) fun second => Mirrors.pure _

theorem ofExcept {x : StateM Disk (Except δ α)} {y : StateM GuardedDisk (Except δ α)}
    (f : δ → ε) (hx : Mirrors x y) : MirrorsLogged (.ofExcept f x) (.ofExcept f y) := by
  refine Mirrors.bind hx fun result => ?_
  split <;> exact Mirrors.pure _

theorem lift {x : StateM Disk α} {y : StateM GuardedDisk α} (hx : Mirrors x y) :
    MirrorsLogged (.lift x : LoggedT _ ε α) (.lift y) :=
  Mirrors.bind hx fun _ => Mirrors.pure _

theorem mapError {x : LoggedT (StateM Disk) δ α} {y : LoggedT (StateM GuardedDisk) δ α}
    (f : δ → ε) (hx : MirrorsLogged x y) : MirrorsLogged (.mapError f x) (.mapError f y) :=
  Mirrors.bind hx fun _ => Mirrors.pure _

end MirrorsLogged

/-! ## The program -/

theorem mirrors_firstFile (paths : List String) :
    Mirrors (SourcePaths.firstFile paths) (SourcePaths.firstFile paths) := by
  induction paths with
  | nil => exact Mirrors.pure _
  | cons path rest ih =>
    refine Mirrors.bind (Mirrors.isFile path) fun found => ?_
    split
    · exact Mirrors.pure _
    · exact ih

variable (env : Environment)

theorem mirrors_locateOne (source : Source) (configured : Option String) :
    Mirrors (SourcePaths.locateOne env source configured)
      (SourcePaths.locateOne env source configured) := by
  unfold SourcePaths.locateOne
  split
  · refine Mirrors.bind (Mirrors.isFile _) fun found => ?_
    split <;> exact Mirrors.pure _
  · refine Mirrors.bind (mirrors_firstFile _) fun found => ?_
    split <;> exact Mirrors.pure _

theorem mirrors_locate (inputs : InputPaths) :
    MirrorsLogged (SourcePaths.locate env inputs) (SourcePaths.locate env inputs) :=
  Mirrors.bind (mirrors_locateOne env _ _) fun _ =>
    Mirrors.bind (mirrors_locateOne env _ _) fun _ =>
      Mirrors.bind (mirrors_locateOne env _ _) fun _ => Mirrors.pure _

theorem mirrors_readOne (path : String) :
    MirrorsLogged (SourcePaths.readOne path) (SourcePaths.readOne path) :=
  .ofExcept _ (Mirrors.readText path)

theorem mirrors_read (paths : SourcePaths) : MirrorsLogged paths.read paths.read :=
  (mirrors_readOne _).bind fun _ => (mirrors_readOne _).bind fun _ =>
    (mirrors_readOne _).bind fun _ => .pure _

theorem mirrors_load (path : String) : MirrorsLogged (Config.load path) (Config.load path) := by
  refine .bind (.ofExcept _ (Mirrors.readText path)) fun text => ?_
  split
  · exact .pure _
  · exact .ofLogged _

theorem mirrors_loadDefault : MirrorsLogged (Config.loadDefault env) (Config.loadDefault env) := by
  unfold Config.loadDefault
  split
  · exact .pure _
  · refine .bind (.lift (Mirrors.pathExists _)) fun found => ?_
    split
    · exact .bind (.ofLogged _) fun _ => mirrors_load _
    · exact .pure _

theorem mirrors_loadConfig (args : Arguments) :
    MirrorsLogged (loadConfig env args) (loadConfig env args) := by
  unfold loadConfig
  split
  · exact .bind (.mapError _ (mirrors_load _)) fun _ => .pure _
  · exact .bind (.mapError _ (mirrors_loadDefault env)) fun _ => .pure _

theorem mirrors_produce (config : Config) :
    MirrorsLogged (produce env config) (produce env config) :=
  .bind (.mapError _ (mirrors_locate env _)) fun paths =>
    .bind (.ofLogged _) fun _ => .bind (.mapError _ (mirrors_read paths)) fun _ =>
      .bind (.ofLogged _) fun _ => .bind (.ofLogged _) fun _ => .bind (.ofLogged _) fun _ => .pure _

theorem mirrors_checkOutput (path text : String) :
    MirrorsLogged (checkOutput path text) (checkOutput path text) := by
  have hfresh : Mirrors (OutputFile.isUpToDate path text) (OutputFile.isUpToDate path text) := by
    refine Mirrors.bind (Mirrors.readText path) fun result => ?_
    split <;> exact Mirrors.pure _
  refine .bind (.ofExcept _ hfresh) fun fresh => ?_
  split <;> exact .ofLogged _

theorem mirrors_write (processId : Nat) (path text : String) :
    Mirrors (OutputFile.write processId path text) (OutputFile.write processId path text) := by
  have habandon : ∀ beside e, Mirrors (OutputFile.abandon beside e) (OutputFile.abandon beside e) :=
    fun beside e => Mirrors.bind (Mirrors.remove beside) fun _ => Mirrors.pure _
  unfold OutputFile.write
  split
  · exact Mirrors.pure _
  · refine Mirrors.bind (Mirrors.writeText _ _) fun written => ?_
    split
    · exact habandon _ _
    · refine Mirrors.bind (Mirrors.rename _ _) fun moved => ?_
      split
      · exact habandon _ _
      · exact Mirrors.pure _

/-- A run on a guarded disk that refuses nothing is the run on the disk. -/
theorem mirrors_run (args : Arguments) : MirrorsLogged (run env args) (run env args) := by
  refine .bind (mirrors_loadConfig env args) fun config => ?_
  refine .bind (mirrors_produce env config) fun generated => ?_
  dsimp only
  split
  · exact .ofLogged _
  · split
    · exact mirrors_checkOutput _ _
    · exact .bind (.ofExcept _ (mirrors_write _ _ _)) fun _ => .ofLogged _

/-- How a run on a disk that refuses nothing ends. -/
def Disk.runOutcome (env : Environment) (args : Arguments) (d : Disk) : Except RunFailure Unit :=
  (run env args : LoggedT (StateM Disk) RunFailure Unit).outcome d

/-- The disk after the run. -/
def Disk.afterRun (env : Environment) (args : Arguments) (d : Disk) : Disk :=
  (run env args : LoggedT (StateM Disk) RunFailure Unit).after d

theorem runOutcome_ofDisk (args : Arguments) (d : Disk) :
    runOutcome env args (.ofDisk d) = d.runOutcome env args := by
  rw [runOutcome, outcome, mirrors_run env args d]
  rfl

theorem diskAfter_ofDisk (args : Arguments) (d : Disk) :
    diskAfter env args (.ofDisk d) = .ofDisk (d.afterRun env args) := by
  rw [diskAfter, after, mirrors_run env args d]
  rfl

end KeyDispatch
