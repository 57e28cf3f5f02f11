import KeyDispatch.Proofs.GuardedDisk

/-!
# The states of a disk while an output file is replaced

A `TracedDisk` keeps a record of every state that requests lead a disk through: a text is written
byte by byte, up to its end or up to where the disk refuses the rest, while a file is moved or
removed at once. Whatever stands on the disk and whatever it refuses, replacing the text of an
output file never shows anything at the path but what stood there or the whole text, and a
replacement that fails leaves no trace but the temporary file, if its removal fails too
(`replace_atomic`). Until the move, no location but that of the temporary file is touched
(`Unmoved`, kept by each step).
-/

namespace KeyDispatch

/-! ## Changes at the end of one path -/

namespace Disk

variable {d d' : Disk} {path beside : String} {l : Location}

/-- The path finds the same on both disks. -/
def SameAt (path : String) (d d' : Disk) : Prop :=
  ∀ l n, d'.look path = .ok (l, n) ↔ d.look path = .ok (l, n)

/-- The disks agree but for a file that may be written at the path. -/
def AgreeButFile (path : String) (d d' : Disk) : Prop :=
  d' = d ∨ ∃ l, d.target path = .ok l ∧ AgreeBut l d d'

namespace AgreeButFile

theorem refl (path : String) (d : Disk) : AgreeButFile path d d := .inl rfl

theorem trans {d'' : Disk} (h : AgreeButFile path d d') (h' : AgreeButFile path d' d'') :
    AgreeButFile path d d'' := by
  obtain rfl | ⟨l, hl, hagree⟩ := h
  · exact h'
  · obtain rfl | ⟨k, hk, hagree'⟩ := h'
    · exact .inr ⟨l, hl, hagree⟩
    · obtain rfl : k = l := by
        rw [hagree.target_iff, hl] at hk
        exact (Except.ok.inj hk).symm
      exact .inr ⟨k, hl, hagree.trans hagree'⟩

theorem resolve_iff (h : AgreeButFile path d d') {other : String} :
    d'.resolve other = .ok l ↔ d.resolve other = .ok l := by
  obtain rfl | ⟨k, hk, hagree⟩ := h
  · rfl
  · exact hagree.resolve_iff

theorem node?_eq (h : AgreeButFile path d d') (hl : d.resolve path ≠ .ok l) :
    d'.node? l = d.node? l := by
  obtain rfl | ⟨k, hk, hagree⟩ := h
  · rfl
  · refine hagree.node?_of_ne l ?_
    rintro rfl
    exact hl (target_eq_ok_iff.1 hk).1

end AgreeButFile

/-- What happens to the temporary file of an output file is not seen at the output file's path. -/
theorem AgreeButFile.sameAt {processId : Nat} {directory name : String}
    (hsplit : Path.split? path = some (directory, name))
    (h : AgreeButFile (OutputFile.temporary processId directory name) d d') :
    SameAt path d d' := by
  obtain rfl | ⟨l, hl, hagree⟩ := h
  · exact fun l n => Iff.rfl
  · exact fun k n => hagree.look_iff (resolve_ne_temporary hsplit hl)

/-- A text that a path holds is the only one that the file is up to date with. -/
theorem isUpToDate_of_readText {text : String} (h : d.readText path = .ok text) (other : String) :
    (OutputFile.isUpToDate path other : StateM Disk (Except FileError Bool)) d =
      (.ok (other == text), d) := by
  have hread : (FileStore.readText path : StateM Disk (Except FileError String)) d =
      (.ok text, d) := congrArg (·, d) h
  unfold OutputFile.isUpToDate
  rw [GuardedDisk.bind_on, hread, BEq.comm]
  rfl

end Disk

/-! ## Disks with a record -/

namespace GuardedDisk

/-- The bytes that a request to write a text leaves in the file in the end, if it touches the
file. -/
def written? (g : GuardedDisk) (path text : String) : Option ByteArray :=
  match g.refusal? (.write path text) with
  | some _ => g.remnant? path
  | none => some text.toUTF8

/-- The disks that writing a text leads through: the file is emptied, then grows by a byte at a
time. -/
def growing (g : GuardedDisk) (path text : String) : List Disk :=
  match g.written? path text, g.disk.target path with
  | some content, .ok l =>
    (List.range (content.size + 1)).map fun n => g.disk.put l (.file (content.extract 0 n))
  | _, _ => []

variable {g : GuardedDisk} {path : String}

/-- What a request to write leaves behind is the same whether it is refused or not. -/
theorem writeText_snd (text : String) :
    (g.writeText path text).2 =
      match g.written? path text, g.disk.target path with
      | some content, .ok l => g.put l (.file content)
      | _, _ => g := by
  unfold writeText written?
  cases g.refusal? (.write path text) with
  | some e => rfl
  | none =>
    rw [Disk.writeText]
    cases g.disk.target path <;> rfl

/-- The step fails and changes nothing, or comes to another disk. -/
def AllOrNothing (g : GuardedDisk) (step : Except FileError Unit × GuardedDisk) : Prop :=
  (∃ e, step = (.error e, g)) ∨ ∃ d, step = (.ok (), { g with disk := d })

theorem allOrNothing_adopt (d : Except FileError Disk) : g.AllOrNothing (g.adopt d) := by
  cases d with
  | error e => exact .inl ⟨e, rfl⟩
  | ok d => exact .inr ⟨d, rfl⟩

theorem allOrNothing_rename (old new : String) : g.AllOrNothing (g.rename old new) := by
  unfold rename
  split
  · exact .inl ⟨_, rfl⟩
  · exact allOrNothing_adopt _

theorem allOrNothing_remove (path : String) : g.AllOrNothing (g.remove path) := by
  unfold remove
  split
  · exact .inl ⟨_, rfl⟩
  · exact allOrNothing_adopt _

end GuardedDisk

/-- A disk and the states that requests have led it through, in order, each with its request. -/
structure TracedDisk where
  start : GuardedDisk
  passed : List (Request × Disk)

namespace TracedDisk

/-- The disk as it is after the last request. -/
def now (t : TracedDisk) : GuardedDisk :=
  { t.start with disk := (t.passed.getLast?.map (·.2)).getD t.start.disk }

/-- A request that has its whole effect at once, or none. -/
def pass (t : TracedDisk) (request : Request) :
    Except FileError Unit × GuardedDisk → Except FileError Unit × TracedDisk
  | (.error e, _) => (.error e, t)
  | (.ok (), after) => (.ok (), { t with passed := t.passed ++ [(request, after.disk)] })

/-- Replaces the text of a file, byte by byte. -/
def writeText (t : TracedDisk) (path text : String) : Except FileError Unit × TracedDisk :=
  ((t.now.writeText path text).1,
    { t with passed := t.passed ++ (t.now.growing path text).map (Request.write path text, ·) })

/-- Moves a file over another path. -/
def rename (t : TracedDisk) (old new : String) : Except FileError Unit × TracedDisk :=
  t.pass (.rename old new) (t.now.rename old new)

/-- Removes a file. -/
def remove (t : TracedDisk) (path : String) : Except FileError Unit × TracedDisk :=
  t.pass (.remove path) (t.now.remove path)

instance : FileStore (StateM TracedDisk) where
  isFile path := fun t => (t.now.isFile path, t)
  pathExists path := fun t => (t.now.pathExists path, t)
  readText path := fun t => (t.now.readText path, t)
  writeText path text := fun t => t.writeText path text
  rename old new := fun t => t.rename old new
  remove path := fun t => t.remove path

/-- What becomes of a disk when the file at a path is replaced, with the states that it passes. -/
def replace (g : GuardedDisk) (processId : Nat) (path text : String) :
    Except FileError Unit × TracedDisk :=
  (OutputFile.write processId path text : StateM TracedDisk (Except FileError Unit)) ⟨g, []⟩

theorem writeText_on (t : TracedDisk) (path text : String) :
    (FileStore.writeText path text : StateM TracedDisk (Except FileError Unit)) t =
      t.writeText path text := rfl

theorem rename_on (t : TracedDisk) (old new : String) :
    (FileStore.rename old new : StateM TracedDisk (Except FileError Unit)) t =
      t.rename old new := rfl

/-! ## The record is one of the same disk -/

theorem now_append (t : TracedDisk) (passed : List (Request × Disk)) (s : Request × Disk) :
    { t with passed := t.passed ++ (passed ++ [s]) : TracedDisk }.now =
      { t.now with disk := s.2 } := by
  simp [now]

/-- The step `y` does on a traced disk what `x` does on the disk as it is then. -/
def Records {α : Type} (x : StateM GuardedDisk α) (y : StateM TracedDisk α) : Prop :=
  ∀ t, (y t).1 = (x t.now).1 ∧ (y t).2.now = (x t.now).2

namespace Records

variable {α β : Type}

theorem pure (a : α) : Records (Pure.pure a) (Pure.pure a) := fun _ => ⟨rfl, rfl⟩

theorem bind {x : StateM GuardedDisk α} {y : StateM TracedDisk α} {f : α → StateM GuardedDisk β}
    {h : α → StateM TracedDisk β} (hx : Records x y) (hf : ∀ a, Records (f a) (h a)) :
    Records (x >>= f) (y >>= h) := by
  intro t
  obtain ⟨hresult, hnow⟩ := hx t
  rw [GuardedDisk.bind_on, GuardedDisk.bind_on, hresult, ← hnow]
  exact hf _ _

/-- Writing a text ends with the last of the disks that it leads through. -/
theorem writeText (path text : String) :
    Records (FileStore.writeText path text) (FileStore.writeText path text) := by
  intro t
  refine ⟨rfl, ?_⟩
  rw [writeText_on, GuardedDisk.writeText_on, GuardedDisk.writeText_snd]
  unfold TracedDisk.writeText GuardedDisk.growing
  split
  · next content l hwritten hl =>
    rw [List.range_succ, List.map_append, List.map_append, List.map_singleton, List.map_singleton,
      now_append, ByteArray.extract_zero_size]
    rfl
  · rw [List.map_nil, List.append_nil]

theorem pass {x : StateM GuardedDisk (Except FileError Unit)} (request : Request)
    (h : ∀ g : GuardedDisk, g.AllOrNothing (x g)) :
    Records x fun t => t.pass request (x t.now) := by
  intro t
  dsimp only
  obtain ⟨e, hstep⟩ | ⟨d, hstep⟩ := h t.now
  · rw [hstep]
    exact ⟨rfl, rfl⟩
  · rw [hstep]
    exact ⟨rfl, now_append t [] _⟩

theorem rename (old new : String) :
    Records (FileStore.rename old new) (FileStore.rename old new) :=
  pass (.rename old new) fun _ => GuardedDisk.allOrNothing_rename old new

theorem remove (path : String) : Records (FileStore.remove path) (FileStore.remove path) :=
  pass (.remove path) fun _ => GuardedDisk.allOrNothing_remove path

end Records

/-! ## Replacements -/

/-- The steps of a replacement by way of the file at `beside`. -/
def steps (g : GuardedDisk) (beside path text : String) : Except FileError Unit × TracedDisk :=
  match (⟨g, []⟩ : TracedDisk).writeText beside text with
  | (.error e, t) => (.error e, (t.remove beside).2)
  | (.ok (), t) =>
    match t.rename beside path with
    | (.error e, t) => (.error e, (t.remove beside).2)
    | (.ok (), t) => (.ok (), t)

section Replace

variable {g : GuardedDisk} {processId : Nat} {path text directory name : String}

theorem replace_of_split?_eq_none (h : Path.split? path = none) :
    replace g processId path text = (.error .noFileName, ⟨g, []⟩) := by
  unfold replace OutputFile.write
  rw [h]
  rfl

theorem replace_eq_steps (hsplit : Path.split? path = some (directory, name)) :
    replace g processId path text =
      steps g (OutputFile.temporary processId directory name) path text := by
  unfold replace OutputFile.write steps
  rw [hsplit]
  dsimp only
  rw [GuardedDisk.bind_on, writeText_on]
  generalize (⟨g, []⟩ : TracedDisk).writeText _ text = written
  obtain ⟨_ | _, t⟩ := written
  · rfl
  · dsimp only
    rw [GuardedDisk.bind_on, rename_on]
    generalize t.rename _ path = moved
    obtain ⟨_ | _, t'⟩ := moved
    · rfl
    · rfl

/-- The record changes nothing: the result and the disk in the end are those without it. -/
theorem replace_eq (g : GuardedDisk) (processId : Nat) (path text : String) :
    (replace g processId path text).1 = (g.replace processId path text).1 ∧
      (replace g processId path text).2.now = (g.replace processId path text).2 := by
  have habandon : ∀ beside e, Records (OutputFile.abandon beside e) (OutputFile.abandon beside e) :=
    fun beside e => .bind (.remove beside) fun _ => .pure _
  suffices hwrite : Records (OutputFile.write processId path text)
      (OutputFile.write processId path text) from hwrite ⟨g, []⟩
  unfold OutputFile.write
  split
  · exact .pure _
  · refine .bind (.writeText _ _) fun written => ?_
    split
    · exact habandon _ _
    · refine .bind (.rename _ _) fun moved => ?_
      split
      · exact habandon _ _
      · exact .pure _

end Replace

/-! ## Until the move -/

/-- So far no file was moved, and nothing was touched but the file at the path. -/
def Unmoved (beside : String) (t : TracedDisk) : Prop :=
  ∀ s ∈ t.passed, Disk.AgreeButFile beside t.start.disk s.2 ∧ ∀ old new, s.1 ≠ .rename old new

section Unmoved

variable {t : TracedDisk} {g : GuardedDisk} {beside : String}

theorem agreeButFile_of_mem_growing {text : String} {d : Disk}
    (h : d ∈ g.growing beside text) : Disk.AgreeButFile beside g.disk d := by
  unfold GuardedDisk.growing at h
  split at h
  · next content l hwritten hl =>
    obtain ⟨n, -, rfl⟩ := List.mem_map.1 h
    exact .inr ⟨l, hl, Disk.agreeBut_put (Disk.target_eq_ok_iff.1 hl).2.1⟩
  · cases h

theorem agreeButFile_remove : Disk.AgreeButFile beside g.disk (g.remove beside).2.disk := by
  unfold GuardedDisk.remove
  split
  · exact .refl _ _
  · cases hremove : g.disk.remove beside with
    | error e => exact .refl _ _
    | ok d =>
      obtain ⟨l, content, hlook, rfl⟩ := Disk.remove_eq_ok_iff.1 hremove
      have hl := Disk.target_of_look hlook
      exact .inr ⟨l, hl, Disk.agreeBut_erase (Disk.target_eq_ok_iff.1 hl).2.1⟩

/-- After its removal, there is no file at a path, unless the removal is refused. -/
theorem isFile_remove :
    (g.remove beside).2.disk.isFile beside = false ∨ ∃ e, g.refusal? (.remove beside) = some e := by
  unfold GuardedDisk.remove
  split
  · next e he => exact .inr ⟨e, he⟩
  · left
    cases hremove : g.disk.remove beside with
    | error e => exact Disk.isFile_of_remove_error hremove
    | ok d => exact Disk.isFile_of_remove_ok hremove

theorem Unmoved.now (h : t.Unmoved beside) :
    Disk.AgreeButFile beside t.start.disk t.now.disk := by
  unfold TracedDisk.now
  cases hlast : t.passed.getLast? with
  | none => exact .refl _ _
  | some s => exact (h s (List.mem_of_getLast? hlast)).1

theorem Unmoved.writeText (h : t.Unmoved beside) (text : String) :
    (t.writeText beside text).2.Unmoved beside := by
  intro s hs
  rcases List.mem_append.1 hs with hs | hs
  · exact h s hs
  · obtain ⟨d, hd, rfl⟩ := List.mem_map.1 hs
    exact ⟨h.now.trans (agreeButFile_of_mem_growing hd), fun _ _ => Request.noConfusion⟩

theorem start_pass (request : Request) (step : Except FileError Unit × GuardedDisk) :
    (t.pass request step).2.start = t.start := by
  obtain ⟨_ | _, after⟩ := step <;> rfl

theorem Unmoved.remove (h : t.Unmoved beside) : (t.remove beside).2.Unmoved beside := by
  have hremove : Disk.AgreeButFile beside t.now.disk (t.now.remove beside).2.disk :=
    agreeButFile_remove
  unfold TracedDisk.remove
  generalize t.now.remove beside = step at hremove
  obtain ⟨_ | _, after⟩ := step
  · exact h
  · intro s hs
    rcases List.mem_append.1 hs with hs | hs
    · exact h s hs
    · obtain rfl := List.mem_singleton.1 hs
      exact ⟨h.now.trans hremove, fun _ _ => Request.noConfusion⟩

/-- A text that was written is found at the path. -/
theorem look_of_writeText {t' : TracedDisk} {text : String}
    (h : t.writeText beside text = (.ok (), t')) :
    ∃ l, t'.now.disk.look beside = .ok (l, .file text.toUTF8) := by
  have hnow := (Records.writeText beside text t).2
  rw [writeText_on, h, GuardedDisk.writeText_on] at hnow
  have hresult : (t.writeText beside text).1 = .ok () := congrArg Prod.fst h
  have hwrite : t.now.writeText beside text = (.ok (), t'.now) := Prod.ext hresult hnow.symm
  obtain ⟨-, l, hl, hput⟩ := GuardedDisk.writeText_eq_ok_iff.1 hwrite
  rw [hput]
  exact ⟨l, Disk.look_put_self hl⟩

/-- A move that fails has no effect. -/
theorem eq_of_rename_error {t' : TracedDisk} {old new : String} {e : FileError}
    (h : t.rename old new = (.error e, t')) : t' = t := by
  unfold TracedDisk.rename at h
  obtain ⟨e', hstep⟩ | ⟨d, hstep⟩ := GuardedDisk.allOrNothing_rename (g := t.now) old new
  · rw [hstep] at h
    exact (congrArg Prod.snd h).symm
  · rw [hstep] at h
    cases h

/-- A move that succeeds is one on the disk, and the last state so far. -/
theorem rename_eq_ok {t' : TracedDisk} {old new : String} (h : t.rename old new = (.ok (), t')) :
    ∃ d, t.now.disk.rename old new = .ok d ∧
      t' = { t with passed := t.passed ++ [(.rename old new, d)] } := by
  unfold TracedDisk.rename GuardedDisk.rename at h
  split at h
  · cases h
  · cases hrename : t.now.disk.rename old new with
    | error e =>
      rw [hrename] at h
      cases h
    | ok d =>
      rw [hrename] at h
      exact ⟨d, rfl, (congrArg Prod.snd h).symm⟩

end Unmoved

/-! ## The whole replacement -/

/-- What replacing the text of the file at `path` by way of the file at `beside` may come to: the
result, and the disk with the states that it passed. -/
structure AtomicReplacement (g : GuardedDisk) (beside path text : String)
    (result : Except FileError Unit) (t : TracedDisk) : Prop where
  start_eq : t.start = g
  /-- At any time, the path finds what it found, or the text. -/
  old_or_new : ∀ s ∈ t.passed, g.disk.SameAt path s.2 ∨ s.2.readText path = .ok text
  /-- At any time, nothing is touched but the two files. -/
  elsewhere : ∀ s ∈ t.passed, ∀ l, g.disk.resolve beside ≠ .ok l → g.disk.resolve path ≠ .ok l →
    s.2.node? l = g.disk.node? l
  ok_iff : result = .ok () ↔ ∃ d, (Request.rename beside path, d) ∈ t.passed ∧
    d.readText path = .ok text
  of_ok : result = .ok () →
    t.now.disk.readText path = .ok text ∧ t.now.disk.pathExists beside = false ∧
      ∀ other, (OutputFile.isUpToDate path other : StateM Disk _) t.now.disk =
        (.ok (other == text), t.now.disk)
  of_error : ∀ e, result = .error e →
    g.disk.SameAt path t.now.disk ∧
      (∀ l, g.disk.resolve beside ≠ .ok l → t.now.disk.node? l = g.disk.node? l) ∧
      (t.now.disk.isFile beside = false ∨ ∃ e, g.refusal? (.remove beside) = some e)

section AtomicReplacement

variable {t : TracedDisk} {processId : Nat} {path text directory name : String}
  (hsplit : Path.split? path = some (directory, name))

include hsplit

/-- A replacement that ends before the move is undone by the removal of the temporary file. -/
theorem Unmoved.atomicReplacement_remove
    (h : t.Unmoved (OutputFile.temporary processId directory name)) (e : FileError) :
    AtomicReplacement t.start (OutputFile.temporary processId directory name) path text (.error e)
      (t.remove (OutputFile.temporary processId directory name)).2 := by
  generalize hbeside : OutputFile.temporary processId directory name = beside at h
  have hsame {d d' : Disk} (hd : Disk.AgreeButFile beside d d') : d.SameAt path d' := by
    subst hbeside
    exact hd.sameAt hsplit
  have hstart : (t.remove beside).2.start = t.start := start_pass _ _
  have hpassed := h.remove
  have hnow := hpassed.now
  rw [Unmoved, hstart] at hpassed
  rw [hstart] at hnow
  refine ⟨hstart, fun s hs => .inl (hsame (hpassed s hs).1),
    fun s hs l hl _ => (hpassed s hs).1.node?_eq hl, ?_, ?_, ?_⟩
  · constructor
    · rintro ⟨⟩
    · rintro ⟨d, hd, -⟩
      exact absurd rfl ((hpassed _ hd).2 beside path)
  · rintro ⟨⟩
  · rintro _ -
    refine ⟨hsame hnow, fun l hl => hnow.node?_eq hl, ?_⟩
    have hremove : (t.remove beside).2.now = (t.now.remove beside).2 := (Records.remove beside t).2
    rw [hremove]
    exact isFile_remove

/-- The move of the temporary file, with the whole text in it, completes the replacement. -/
theorem Unmoved.atomicReplacement_rename {t' : TracedDisk} {k : Location}
    (h : t.Unmoved (OutputFile.temporary processId directory name))
    (hlook : t.now.disk.look (OutputFile.temporary processId directory name) =
      .ok (k, .file text.toUTF8))
    (hmove : t.rename (OutputFile.temporary processId directory name) path = (.ok (), t')) :
    AtomicReplacement t.start (OutputFile.temporary processId directory name) path text (.ok ())
      t' := by
  generalize hbeside : OutputFile.temporary processId directory name = beside at h hlook hmove
  obtain ⟨d, hd, rfl⟩ := rename_eq_ok hmove
  obtain ⟨k', l, content, hlook', hl, rfl⟩ := Disk.rename_eq_ok hd
  rw [hlook] at hlook'
  cases hlook'
  have hk := Disk.target_of_look hlook
  have hne : k ≠ l := by
    subst hbeside
    exact Disk.temporary_ne_output hsplit hk hl
  have hread : ((t.now.disk.erase k).put l (.file text.toUTF8)).readText path = .ok text :=
    Disk.readText_eq_ok_iff.2 ⟨l, Disk.look_erase_put hk hl⟩
  have hnow := now_append t [] (.rename beside path, (t.now.disk.erase k).put l (.file text.toUTF8))
  rw [List.nil_append] at hnow
  refine ⟨rfl, ?_, ?_, ?_, ?_, ?_⟩
  -- the output is as it was in all states but the last one
  · intro s hs
    rcases List.mem_append.1 hs with hbefore | hlast
    · subst hbeside
      exact .inl ((h s hbefore).1.sameAt hsplit)
    · obtain rfl := List.mem_singleton.1 hlast
      exact .inr hread
  -- the move touches the two ends of its paths, which lead there on the disk at the start too
  · intro s hs j hj hjpath
    rcases List.mem_append.1 hs with hbefore | hlast
    · exact (h s hbefore).1.node?_eq hj
    · obtain rfl := List.mem_singleton.1 hlast
      have hjk : j ≠ k := by
        rintro rfl
        exact hj (h.now.resolve_iff.1 (Disk.target_eq_ok_iff.1 hk).1)
      have hjl : j ≠ l := by
        rintro rfl
        exact hjpath (h.now.resolve_iff.1 (Disk.moveTarget_eq_ok_iff.1 hl).1)
      exact (Disk.node?_erase_put hk hl hjk hjl).trans (h.now.node?_eq hj)
  · exact iff_of_true rfl ⟨_, List.mem_append_right _ (List.mem_singleton_self _), hread⟩
  · intro _
    rw [hnow]
    exact ⟨hread, Disk.pathExists_erase_put hk hl hne, Disk.isUpToDate_of_readText hread⟩
  · rintro _ ⟨⟩

end AtomicReplacement

/-- Replacing the text of an output file is atomic, whatever stands on the disk and whatever the
disk refuses: at any time the path finds what it found before or the whole text. It succeeds exactly
if the temporary file is moved to the path with the text in it; then the temporary file is gone and
the file is up to date with the text and no other one. If it fails, only the temporary file may be
touched, and it is removed unless that is refused too. A path without a file name touches
nothing. -/
theorem replace_atomic (g : GuardedDisk) (processId : Nat) (path text : String) :
    (∀ directory name, Path.split? path = some (directory, name) →
      AtomicReplacement g (OutputFile.temporary processId directory name) path text
        (replace g processId path text).1 (replace g processId path text).2) ∧
      (Path.split? path = none →
        replace g processId path text = (.error .noFileName, ⟨g, []⟩)) := by
  refine ⟨?_, replace_of_split?_eq_none⟩
  intro directory name hsplit
  rw [replace_eq_steps hsplit]
  have hbegin : Unmoved (OutputFile.temporary processId directory name) ⟨g, []⟩ :=
    fun s hs => absurd hs List.not_mem_nil
  have hwritten := hbegin.writeText text
  unfold steps
  split
  · next e t hwrite =>
    rw [hwrite] at hwritten
    obtain rfl : t.start = g := (congrArg (·.2.start) hwrite).symm
    exact hwritten.atomicReplacement_remove hsplit e
  · next t hwrite =>
    rw [hwrite] at hwritten
    obtain rfl : t.start = g := (congrArg (·.2.start) hwrite).symm
    split
    · next e t' hmove =>
      obtain rfl := eq_of_rename_error hmove
      exact hwritten.atomicReplacement_remove hsplit e
    · next t' hmove =>
      obtain ⟨k, hlook⟩ := look_of_writeText hwrite
      exact hwritten.atomicReplacement_rename hsplit hlook hmove

/-- A full disk with an output file and a temporary file that was left behind beside it: of a text
to be written, two bytes fit. -/
def fullDisk : GuardedDisk where
  disk := ⟨[(["out.txt"], .file "old".toUTF8), (["out.txt.7.tmp"], .file "stale".toUTF8)], []⟩
  refusal?
    | .write _ _ => some (.system "No space left on device")
    | _ => none
  remnant? _ := some "ne".toUTF8

theorem replace_atomic_fullDisk :
    Path.split? "out.txt" = some ("", "out.txt") ∧
      AtomicReplacement fullDisk (OutputFile.temporary 7 "" "out.txt") "out.txt" "new"
        (replace fullDisk 7 "out.txt" "new").1 (replace fullDisk 7 "out.txt" "new").2 ∧
      (replace fullDisk 7 "out.txt" "new").1 = .error (.system "No space left on device") ∧
      (replace fullDisk 7 "out.txt" "new").2.passed.map (·.2.readText "out.txt.7.tmp") =
        [.ok "", .ok "n", .ok "ne", .error .notFound] ∧
      (replace fullDisk 7 "out.txt" "new").2.now.disk.readText "out.txt" = .ok "old" ∧
      Path.split? ".." = none ∧
      replace fullDisk 7 ".." "new" = (.error .noFileName, ⟨fullDisk, []⟩) := by
  have hsplit : Path.split? "out.txt" = some ("", "out.txt") := by decide
  have hparent : Path.split? ".." = none := by decide
  exact ⟨hsplit, (replace_atomic fullDisk 7 "out.txt" "new").1 "" "out.txt" hsplit,
    by decide +kernel, by decide +kernel, by decide +kernel, hparent,
    (replace_atomic fullDisk 7 ".." "new").2 hparent⟩

end TracedDisk

end KeyDispatch
