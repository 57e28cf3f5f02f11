import KeyDispatch.Files.Disk
import KeyDispatch.Run
import KeyDispatch.Proofs.TemporaryPath

/-!
# Disks that refuse requests

A `GuardedDisk` is a disk with requests that it refuses, as for want of a permission or of space. A
refused text may all the same leave other bytes in the file. Replacing the text of an output file
on it either succeeds and changes this one file, or fails and changes nothing, unless the removal
of the temporary file is refused too. A disk that refuses nothing is a `Disk`.
-/

namespace KeyDispatch

/-- What is asked of a file system. -/
inductive Request where
  | look (path : String)
  | read (path : String)
  | write (path text : String)
  | rename (old new : String)
  | remove (path : String)

/-- A disk, the requests that it refuses, and the bytes that a refused text leaves in the file at a
path, if the file is touched at all. -/
structure GuardedDisk where
  disk : Disk
  refusal? : Request → Option FileError
  remnant? : String → Option ByteArray

namespace GuardedDisk

/-- A disk that refuses nothing. -/
def ofDisk (d : Disk) : GuardedDisk := ⟨d, fun _ => none, fun _ => none⟩

/-- The disk with a node at a location. -/
def put (g : GuardedDisk) (l : Location) (n : Node) : GuardedDisk :=
  { g with disk := g.disk.put l n }

/-- The path is seen to lead to a regular file. -/
def isFile (g : GuardedDisk) (path : String) : Bool :=
  (g.refusal? (.look path)).isNone && g.disk.isFile path

/-- The path is seen to lead to a file or a directory. -/
def pathExists (g : GuardedDisk) (path : String) : Bool :=
  (g.refusal? (.look path)).isNone && g.disk.pathExists path

/-- The text of a file. -/
def readText (g : GuardedDisk) (path : String) : Except FileError String :=
  match g.refusal? (.read path) with
  | some e => .error e
  | none => g.disk.readText path

/-- The disk after a text for a file was refused. -/
def spoil (g : GuardedDisk) (path : String) : GuardedDisk :=
  match g.remnant? path, g.disk.target path with
  | some content, .ok l => g.put l (.file content)
  | _, _ => g

/-- The disk after a change that is not refused. -/
def adopt (g : GuardedDisk) : Except FileError Disk → Except FileError Unit × GuardedDisk
  | .error e => (.error e, g)
  | .ok d => (.ok (), { g with disk := d })

/-- Replaces the text of a file. -/
def writeText (g : GuardedDisk) (path text : String) : Except FileError Unit × GuardedDisk :=
  match g.refusal? (.write path text) with
  | some e => (.error e, g.spoil path)
  | none => g.adopt (g.disk.writeText path text)

/-- Moves a file over another path. -/
def rename (g : GuardedDisk) (old new : String) : Except FileError Unit × GuardedDisk :=
  match g.refusal? (.rename old new) with
  | some e => (.error e, g)
  | none => g.adopt (g.disk.rename old new)

/-- Removes a file. -/
def remove (g : GuardedDisk) (path : String) : Except FileError Unit × GuardedDisk :=
  match g.refusal? (.remove path) with
  | some e => (.error e, g)
  | none => g.adopt (g.disk.remove path)

instance : FileStore (StateM GuardedDisk) where
  isFile path := fun g => (g.isFile path, g)
  pathExists path := fun g => (g.pathExists path, g)
  readText path := fun g => (g.readText path, g)
  writeText path text := fun g => g.writeText path text
  rename old new := fun g => g.rename old new
  remove path := fun g => g.remove path

section Operations

variable (g : GuardedDisk) (path : String)

theorem isFile_on : (FileStore.isFile path : StateM GuardedDisk Bool) g = (g.isFile path, g) := rfl

theorem pathExists_on :
    (FileStore.pathExists path : StateM GuardedDisk Bool) g = (g.pathExists path, g) := rfl

theorem readText_on :
    (FileStore.readText path : StateM GuardedDisk (Except FileError String)) g =
      (g.readText path, g) := rfl

theorem writeText_on (text : String) :
    (FileStore.writeText path text : StateM GuardedDisk (Except FileError Unit)) g =
      g.writeText path text := rfl

theorem rename_on (old : String) :
    (FileStore.rename old path : StateM GuardedDisk (Except FileError Unit)) g =
      g.rename old path := rfl

/-- Two steps on a store, one after the other. -/
theorem bind_on {σ α β : Type} (x : StateM σ α) (f : α → StateM σ β) (s : σ) :
    (x >>= f) s = f (x s).1 (x s).2 := rfl

end Operations

variable {g : GuardedDisk} {path beside : String} {l k : Location} {content : ByteArray}

/-! ## Temporary files -/

/-- The disk `after` is the disk `g` but for a file at the path, whose removal is refused. -/
def LeftBehind (g after : GuardedDisk) (path : String) : Prop :=
  (∃ e, g.refusal? (.remove path) = some e) ∧
    ∃ l content, g.disk.resolve path = .ok l ∧ after = g.put l (.file content)

/-- The disk refuses no removal. -/
def RemovesAll (g : GuardedDisk) : Prop := ∀ path, g.refusal? (.remove path) = none

/-- A disk that refuses no removal leaves nothing behind. -/
theorem RemovesAll.not_leftBehind {after : GuardedDisk} (h : g.RemovesAll) :
    ¬ g.LeftBehind after path := by
  rintro ⟨⟨e, hrefused⟩, -⟩
  rw [h path] at hrefused
  cases hrefused

/-- Removing a file that is not there changes nothing. -/
theorem remove_of_not_isFile (h : g.disk.isFile path = false) : (g.remove path).2 = g := by
  unfold remove
  split
  · rfl
  · rw [Disk.remove]
    cases hlook : g.disk.look path with
    | error e => rfl
    | ok found =>
      obtain ⟨l, n⟩ := found
      cases n with
      | directory => rfl
      | file content =>
        rw [Disk.isFile_eq_true_iff.2 ⟨l, content, hlook⟩] at h
        cases h

/-- A new file is removed again without a trace, or its removal is refused. -/
theorem remove_put (hl : g.disk.target path = .ok l) (hfree : g.disk.isFile path = false) :
    ((g.put l (.file content)).remove path).2 = g ∨
      LeftBehind g ((g.put l (.file content)).remove path).2 path := by
  have hnone := Disk.node?_eq_none_of_target hl hfree
  have htarget := Disk.target_eq_ok_iff.1 hl
  unfold remove
  split
  · next e he => exact .inr ⟨⟨e, he⟩, l, content, htarget.1, rfl⟩
  · left
    have hremoved : (g.disk.put l (.file content)).remove path = .ok g.disk := by
      rw [Disk.remove, Disk.look_put_self hl]
      exact congrArg Except.ok (Disk.erase_put (Disk.ne_nil_of_node? htarget.2.1) hnone)
    rw [put, hremoved]
    rfl

/-- After a text was refused or failed, the file is removed without a trace, or its removal is
refused. -/
theorem remove_of_writeText_error {text : String} {e : FileError} {g' : GuardedDisk}
    (h : g.writeText path text = (.error e, g')) (hfree : g.disk.isFile path = false) :
    (g'.remove path).2 = g ∨ LeftBehind g (g'.remove path).2 path := by
  unfold writeText at h
  split at h
  · cases h
    unfold spoil
    split
    · next content l hremnant hl => exact remove_put hl hfree
    · exact .inl (remove_of_not_isFile hfree)
  · rw [Disk.writeText] at h
    cases hl : g.disk.target path with
    | error e =>
      rw [hl] at h
      cases h
      exact .inl (remove_of_not_isFile hfree)
    | ok l =>
      rw [hl] at h
      cases h

theorem writeText_eq_ok_iff {text : String} {g' : GuardedDisk} :
    g.writeText path text = (.ok (), g') ↔
      g.refusal? (.write path text) = none ∧
        ∃ l, g.disk.target path = .ok l ∧ g' = g.put l (.file text.toUTF8) := by
  unfold writeText
  split
  · next e he => simp [he]
  · next hnone =>
    rw [Disk.writeText]
    cases hl : g.disk.target path with
    | error e => simp [adopt]
    | ok l => simp [adopt, put, hnone, eq_comm]

/-- A new file moved over another path leaves no trace where it was. -/
theorem rename_put (hl : g.disk.target beside = .ok l) (hfree : g.disk.isFile beside = false)
    (hrefusal : g.refusal? (.rename beside path) = none) (hk : g.disk.moveTarget path = .ok k) :
    (g.put l (.file content)).rename beside path = (.ok (), g.put k (.file content)) := by
  have hnone := Disk.node?_eq_none_of_target hl hfree
  have hnode := (Disk.target_eq_ok_iff.1 hl).2.1
  simp only [rename, put, hrefusal, Disk.rename, Disk.look_put_self hl,
    (Disk.moveTarget_put hnode).2 hk]
  rw [Disk.erase_put (Disk.ne_nil_of_node? hnode) hnone]
  rfl

/-- A move that fails changes nothing. -/
theorem eq_of_rename_error {e : FileError} {after : GuardedDisk}
    (h : g.rename beside path = (.error e, after)) : after = g := by
  unfold rename at h
  split at h
  · cases h
    rfl
  · cases hrename : g.disk.rename beside path with
    | error e =>
      rw [hrename] at h
      cases h
      rfl
    | ok d =>
      rw [hrename] at h
      cases h

/-- If a new file is moved, its move is not refused and there is a place for it. -/
theorem moveTarget_of_rename_put {after : GuardedDisk} (hl : g.disk.target beside = .ok l)
    (h : (g.put l (.file content)).rename beside path = (.ok (), after)) :
    g.refusal? (.rename beside path) = none ∧ ∃ k, g.disk.moveTarget path = .ok k := by
  have hnode := (Disk.target_eq_ok_iff.1 hl).2.1
  unfold rename at h
  split at h
  · cases h
  · next hrefusal =>
    refine ⟨hrefusal, ?_⟩
    simp only [put, Disk.rename, Disk.look_put_self hl] at h
    cases hk : (g.disk.put l (.file content)).moveTarget path with
    | error e =>
      rw [hk] at h
      cases h
    | ok k => exact ⟨k, (Disk.moveTarget_put hnode).1 hk⟩

/-! ## Output files -/

variable {processId : Nat} {text : String}

/-- No file stands where the temporary file of an output file goes. -/
def TemporaryFree (g : GuardedDisk) (processId : Nat) (path : String) : Prop :=
  ∀ directory name, Path.split? path = some (directory, name) →
    g.disk.isFile (OutputFile.temporary processId directory name) = false

/-- The file at a path can be replaced by a text, and the path leads to the location: both steps by
way of the temporary file are possible and not refused. -/
def Replaceable (g : GuardedDisk) (processId : Nat) (path text : String) (l : Location) : Prop :=
  ∃ directory name k, Path.split? path = some (directory, name) ∧
    g.refusal? (.write (OutputFile.temporary processId directory name) text) = none ∧
    g.refusal? (.rename (OutputFile.temporary processId directory name) path) = none ∧
    g.disk.target (OutputFile.temporary processId directory name) = .ok k ∧
    g.disk.moveTarget path = .ok l

/-- What becomes of the disk when the file at a path is replaced. -/
def replace (g : GuardedDisk) (processId : Nat) (path text : String) :
    Except FileError Unit × GuardedDisk :=
  (OutputFile.write processId path text : StateM GuardedDisk (Except FileError Unit)) g

section Steps

variable {directory name : String} {g₁ g₂ : GuardedDisk} {e : FileError}
  (hsplit : Path.split? path = some (directory, name))

include hsplit

/-- A refused or failed text for the temporary file ends the replacement. -/
theorem replace_of_writeText_error
    (hwrite : g.writeText (OutputFile.temporary processId directory name) text = (.error e, g₁)) :
    g.replace processId path text =
      (.error e, (g₁.remove (OutputFile.temporary processId directory name)).2) := by
  unfold replace OutputFile.write
  rw [hsplit]
  dsimp only
  rw [bind_on, writeText_on, hwrite]
  rfl

/-- A refused or failed move ends the replacement. -/
theorem replace_of_rename_error
    (hwrite : g.writeText (OutputFile.temporary processId directory name) text = (.ok (), g₁))
    (hrename :
      g₁.rename (OutputFile.temporary processId directory name) path = (.error e, g₂)) :
    g.replace processId path text =
      (.error e, (g₂.remove (OutputFile.temporary processId directory name)).2) := by
  unfold replace OutputFile.write
  rw [hsplit]
  dsimp only
  rw [bind_on, writeText_on, hwrite]
  dsimp only
  rw [bind_on, rename_on, hrename]
  rfl

/-- The move completes the replacement. -/
theorem replace_of_rename_ok
    (hwrite : g.writeText (OutputFile.temporary processId directory name) text = (.ok (), g₁))
    (hrename : g₁.rename (OutputFile.temporary processId directory name) path = (.ok (), g₂)) :
    g.replace processId path text = (.ok (), g₂) := by
  unfold replace OutputFile.write
  rw [hsplit]
  dsimp only
  rw [bind_on, writeText_on, hwrite]
  dsimp only
  rw [bind_on, rename_on, hrename]
  rfl

end Steps

theorem replace_of_split?_eq_none (h : Path.split? path = none) :
    g.replace processId path text = (.error .noFileName, g) := by
  unfold replace OutputFile.write
  rw [h]
  rfl

/-- A file that can be replaced is replaced. -/
theorem replace_of_replaceable (h : g.Replaceable processId path text l)
    (hfree : g.TemporaryFree processId path) :
    g.replace processId path text = (.ok (), g.put l (.file text.toUTF8)) := by
  obtain ⟨directory, name, k, hsplit, hwrite, hrename, hk, hl⟩ := h
  exact replace_of_rename_ok hsplit (writeText_eq_ok_iff.2 ⟨hwrite, k, hk, rfl⟩)
    (rename_put hk (hfree directory name hsplit) hrename hl)

/-- Where nothing stands in the way of the temporary file, replacing the text of a file either
changes this one file, or fails and leaves at most the temporary file behind. -/
theorem replace_cases (hfree : g.TemporaryFree processId path) :
    (∃ l, g.Replaceable processId path text l ∧
      g.replace processId path text = (.ok (), g.put l (.file text.toUTF8))) ∨
    ∃ e after, g.replace processId path text = (.error e, after) ∧
      (after = g ∨ ∃ directory name, Path.split? path = some (directory, name) ∧
        g.LeftBehind after (OutputFile.temporary processId directory name)) := by
  cases hsplit : Path.split? path with
  | none => exact .inr ⟨_, _, replace_of_split?_eq_none hsplit, .inl rfl⟩
  | some parts =>
    obtain ⟨directory, name⟩ := parts
    have hbeside := hfree directory name hsplit
    cases hwrite : g.writeText (OutputFile.temporary processId directory name) text with
    | mk result g₁ =>
      cases result with
      | error e =>
        -- a text that was cut off may stand there, and may not be taken away
        refine .inr ⟨e, _, replace_of_writeText_error hsplit hwrite, ?_⟩
        exact (remove_of_writeText_error hwrite hbeside).imp_right fun hleft =>
          ⟨directory, name, rfl, hleft⟩
      | ok =>
        obtain ⟨hwritable, k, hk, rfl⟩ := writeText_eq_ok_iff.1 hwrite
        cases hrename : (g.put k (.file text.toUTF8)).rename
            (OutputFile.temporary processId directory name) path with
        | mk result g₂ =>
          cases result with
          | error e =>
            obtain rfl := eq_of_rename_error hrename
            refine .inr ⟨e, _, replace_of_rename_error hsplit hwrite hrename, ?_⟩
            exact (remove_put hk hbeside).imp_right fun hleft => ⟨directory, name, rfl, hleft⟩
          | ok =>
            obtain ⟨hmovable, l, hl⟩ := moveTarget_of_rename_put hk hrename
            have hreplaceable : g.Replaceable processId path text l :=
              ⟨directory, name, k, hsplit, hwritable, hmovable, hk, hl⟩
            exact .inl ⟨l, hreplaceable, replace_of_replaceable hreplaceable hfree⟩

theorem Replaceable.node?_ne_directory (h : g.Replaceable processId path text l) :
    g.disk.node? l ≠ some .directory := by
  obtain ⟨directory, name, k, -, -, -, -, hl⟩ := h
  exact (Disk.moveTarget_eq_ok_iff.1 hl).2.1

/-- A replaced file holds the text, and no other location is touched. -/
theorem Replaceable.readText_put (h : g.Replaceable processId path text l) :
    g.disk.resolve path = .ok l ∧
      (g.put l (.file text.toUTF8)).disk.readText path = .ok text ∧
      ∀ k, k ≠ l → (g.put l (.file text.toUTF8)).disk.node? k = g.disk.node? k := by
  obtain ⟨directory, name, k, -, -, -, -, hl⟩ := h
  obtain ⟨hresolve, hnode, -⟩ := Disk.moveTarget_eq_ok_iff.1 hl
  refine ⟨hresolve, ?_, fun k hk => Disk.node?_put_of_ne (Disk.ne_nil_of_node? hnode) hk⟩
  exact Disk.readText_eq_ok_iff.2 ⟨l, Disk.look_put_self (Disk.target_of_moveTarget hl)⟩

/-- A file that was replaced can be replaced again, with nothing in the way of the temporary
file. -/
theorem Replaceable.put (h : g.Replaceable processId path text l) (content : ByteArray) :
    (g.put l (.file content)).Replaceable processId path text l := by
  obtain ⟨directory, name, k, hsplit, hwrite, hrename, hk, hl⟩ := h
  have hnode := (Disk.moveTarget_eq_ok_iff.1 hl).2.1
  exact ⟨directory, name, k, hsplit, hwrite, hrename, (Disk.target_put hnode).2 hk,
    (Disk.moveTarget_put hnode).2 hl⟩

theorem TemporaryFree.put (hfree : g.TemporaryFree processId path)
    (h : g.Replaceable processId path text l) (content : ByteArray) :
    (g.put l (.file content)).TemporaryFree processId path := by
  obtain ⟨directory, name, k, hsplit, -, -, hk, hl⟩ := h
  intro directory' name' hsplit'
  rw [hsplit] at hsplit'
  cases hsplit'
  have hne : g.disk.resolve (OutputFile.temporary processId directory name) ≠ .ok l := by
    rw [(Disk.target_eq_ok_iff.1 hk).1]
    exact fun heq => Disk.temporary_ne_output hsplit hk hl (Except.ok.inj heq)
  exact (Disk.isFile_put (Disk.moveTarget_eq_ok_iff.1 hl).2.1 hne).trans (hfree _ _ hsplit)

/-- Putting the file that stands there already changes nothing. -/
theorem put_eq_self (h : g.disk.node? l = some (.file content)) :
    g.put l (.file content) = g := by
  have hnil : l ≠ [] := by
    rintro rfl
    cases h
  rw [put, Disk.put_eq_self hnil h]

/-- Replacing a file by the text that it holds changes nothing. -/
theorem put_eq_self_of_readText (hread : g.readText path = .ok text)
    (hl : g.disk.resolve path = .ok l) : g.put l (.file text.toUTF8) = g := by
  have htext : g.disk.readText path = .ok text := by
    unfold readText at hread
    split at hread
    · cases hread
    · exact hread
  obtain ⟨k, hlook⟩ := Disk.readText_eq_ok_iff.1 htext
  obtain ⟨hk, hnode, -⟩ := Disk.look_eq_ok_iff.1 hlook
  rw [hl] at hk
  cases hk
  exact put_eq_self hnode

end GuardedDisk

end KeyDispatch
