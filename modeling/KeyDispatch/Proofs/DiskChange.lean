import KeyDispatch.Files.Disk

/-!
# Changes of a disk

What stands at each location after a node is put somewhere or taken away, and what that means for
paths. A walk is one step after another from directory to directory (`walk_cons_eq_ok_iff`). So two
disks that differ at one location only, with a directory there on neither (`AgreeBut`), have the
same paths, and what is found at the end of a path differs at that one location only. So it is
before and after a file is put somewhere, or taken away.
-/

namespace KeyDispatch

/-- Bytes are read as a text exactly if they are the bytes of the text. -/
theorem fromUTF8?_eq_some_iff {content : ByteArray} {text : String} :
    String.fromUTF8? content = some text ↔ content = text.toUTF8 := by
  unfold String.fromUTF8?
  constructor
  · intro h
    split at h
    · cases h
      rfl
    · cases h
  · rintro rfl
    exact dif_pos text.isValidUTF8

namespace Disk

variable {d : Disk} {l k : Location} {n : Node} {path : String}

/-! ## Nodes -/

/-- The root is a directory. -/
theorem node?_nil (d : Disk) : d.node? [] = some .directory := rfl

theorem ne_nil_of_node? (h : d.node? l ≠ some .directory) : l ≠ [] := by
  rintro rfl
  exact h d.node?_nil

theorem node?_eq_find? (hl : l ≠ []) :
    d.node? l = (d.nodes.find? fun e => e.1 == l).map (·.2) := by
  rw [node?, if_neg (by simpa using hl)]

theorem find?_putNode (entries : List (Location × Node)) :
    ((putNode l n entries).find? fun e => e.1 == k) =
      if k = l then some (l, n) else entries.find? fun e => e.1 == k := by
  induction entries with
  | nil =>
    by_cases hk : k = l
    · simp [putNode, hk]
    · simp [putNode, hk, Ne.symm hk]
  | cons e rest ih =>
    rw [putNode]
    by_cases he : e.1 = l
    · rw [if_pos he]
      by_cases hk : k = l
      · simp [hk]
      · rw [if_neg hk, List.find?_cons, List.find?_cons, he, beq_eq_false_iff_ne.2 (Ne.symm hk)]
    · rw [if_neg he, List.find?_cons, ih, List.find?_cons]
      by_cases hk : k = l
      · subst hk
        rw [beq_eq_false_iff_ne.2 he, if_pos rfl]
      · simp only [hk, if_false]

/-- A node stands where it was put, and every other location is as it was. -/
theorem node?_put (hl : l ≠ []) :
    (d.put l n).node? k = if k = l then some n else d.node? k := by
  by_cases hk : k = []
  · subst hk
    rw [if_neg (Ne.symm hl), node?_nil, node?_nil]
  · rw [node?_eq_find? hk, node?_eq_find? hk, put, find?_putNode]
    split <;> rfl

theorem node?_put_self (hl : l ≠ []) : (d.put l n).node? l = some n := by
  rw [node?_put hl, if_pos rfl]

theorem node?_put_of_ne (hl : l ≠ []) (hk : k ≠ l) : (d.put l n).node? k = d.node? k := by
  rw [node?_put hl, if_neg hk]

/-- Putting what stands there already changes nothing. -/
theorem put_eq_self (hl : l ≠ []) (h : d.node? l = some n) : d.put l n = d := by
  rw [node?_eq_find? hl, Option.map_eq_some_iff] at h
  obtain ⟨e, he, rfl⟩ := h
  rw [put]
  congr
  generalize d.nodes = entries at he
  induction entries with
  | nil => cases he
  | cons first rest ih =>
    rw [List.find?_cons] at he
    rw [putNode]
    by_cases hfirst : first.1 = l
    · rw [if_pos hfirst]
      rw [beq_iff_eq.2 hfirst] at he
      cases he
      rw [← hfirst]
    · rw [if_neg hfirst]
      rw [beq_eq_false_iff_ne.2 hfirst] at he
      rw [ih he]

/-- Taking away what was put at a free location brings the disk back. -/
theorem erase_put (hl : l ≠ []) (h : d.node? l = none) : (d.put l n).erase l = d := by
  rw [node?_eq_find? hl, Option.map_eq_none_iff, List.find?_eq_none] at h
  rw [put, erase]
  congr
  generalize d.nodes = entries at h
  induction entries with
  | nil => simp [putNode]
  | cons e rest ih =>
    obtain ⟨he, hrest⟩ := List.forall_mem_cons.1 h
    have hne : e.1 ≠ l := by simpa using he
    rw [putNode, if_neg hne, List.filter_cons_of_pos (by simpa using hne), ih hrest]

/-- Nothing stands at a location that was taken away, and every other one is as it was. -/
theorem node?_erase (hl : l ≠ []) :
    (d.erase l).node? k = if k = l then none else d.node? k := by
  by_cases hk : k = []
  · subst hk
    rw [if_neg (Ne.symm hl), node?_nil, node?_nil]
  · rw [node?_eq_find? hk, node?_eq_find? hk, erase, List.find?_filter]
    split
    · next heq =>
      subst heq
      rw [Option.map_eq_none_iff, List.find?_eq_none]
      simp
    · next hne =>
      congr 2
      funext e
      by_cases he : e.1 = k
      · simp [he, hne]
      · simp [he]

/-! ## Walks -/

/-- Where one step leads from a directory: nowhere else, up, or to what has the name there. -/
inductive StepsTo (l : Location) (step : String) : Location → Prop where
  | same (hstep : step = ".") : StepsTo l step l
  | up (hstep : step = "..") : StepsTo l step l.dropLast
  | into (hsame : step ≠ ".") (hup : step ≠ "..") (hsize : step.utf8ByteSize ≤ Path.nameLimit) :
      StepsTo l step (l ++ [step])

/-- A walk is a first step from a directory and a walk from where that leads. -/
theorem walk_cons_eq_ok_iff {step : String} {rest : List String} {start last : Location} :
    d.walk start (step :: rest) = .ok last ↔
      d.node? start = some .directory ∧
        ∃ next, StepsTo start step next ∧ d.walk next rest = .ok last := by
  constructor
  · intro h
    rw [walk] at h
    split at h
    · cases h
    · cases h
    · next hdirectory =>
      refine ⟨hdirectory, ?_⟩
      split at h
      · next hsame => exact ⟨_, .same hsame, h⟩
      · next hsame =>
        split at h
        · next hup => exact ⟨_, .up hup, h⟩
        · next hup =>
          split at h
          · cases h
          · next hsize => exact ⟨_, .into hsame hup (Nat.not_lt.1 hsize), h⟩
  · rintro ⟨hdirectory, next, hnext, hwalk⟩
    cases hnext with
    | same hstep => simpa [walk, hdirectory, hstep] using hwalk
    | up hstep => simpa [walk, hdirectory, hstep] using hwalk
    | into hsame hup hsize =>
      simpa [walk, hdirectory, hsame, hup, Nat.not_lt.2 hsize] using hwalk

/-- A path leads where its steps lead from the root or from the working directory, unless it is no
path at all or too long. -/
theorem resolve_eq_ok_iff :
    d.resolve path = .ok l ↔
      (Path.holdsTerminator path = false ∧ path.isEmpty = false ∧
        path.utf8ByteSize ≤ Path.pathLimit) ∧
      d.walk (if Path.isAbsolute path then [] else d.workingDirectory) (Path.segments path) =
        .ok l := by
  unfold resolve
  split
  · next hterminator => simp [hterminator]
  · next hterminator =>
    split
    · next hempty => simp [hempty]
    · next hempty =>
      split
      · next hsize => simp [Nat.not_le.2 hsize]
      · next hsize => simp [hterminator, hempty, Nat.not_lt.1 hsize]

/-- The disks agree but for one location, where neither has a directory. -/
structure AgreeBut (l : Location) (d d' : Disk) : Prop where
  workingDirectory : d'.workingDirectory = d.workingDirectory
  node?_of_ne : ∀ k, k ≠ l → d'.node? k = d.node? k
  before : d.node? l ≠ some .directory
  after : d'.node? l ≠ some .directory

theorem agreeBut_put {content : ByteArray} (h : d.node? l ≠ some .directory) :
    AgreeBut l d (d.put l (.file content)) where
  workingDirectory := rfl
  node?_of_ne _ hk := node?_put_of_ne (ne_nil_of_node? h) hk
  before := h
  after := by
    rw [node?_put_self (ne_nil_of_node? h)]
    exact fun hfile => Node.noConfusion (Option.some.inj hfile)

theorem agreeBut_erase (h : d.node? l ≠ some .directory) : AgreeBut l d (d.erase l) where
  workingDirectory := rfl
  node?_of_ne k hk := by rw [node?_erase (ne_nil_of_node? h), if_neg hk]
  before := h
  after := by
    rw [node?_erase (ne_nil_of_node? h), if_pos rfl]
    exact (Option.some_ne_none _).symm

/-! ## Paths -/

namespace AgreeBut

variable {d' : Disk} (h : AgreeBut l d d')

include h

theorem trans {d'' : Disk} (h' : AgreeBut l d' d'') : AgreeBut l d d'' where
  workingDirectory := h'.workingDirectory.trans h.workingDirectory
  node?_of_ne k hk := (h'.node?_of_ne k hk).trans (h.node?_of_ne k hk)
  before := h.before
  after := h'.after

theorem node?_eq_directory_iff : d'.node? k = some .directory ↔ d.node? k = some .directory := by
  by_cases hk : k = l
  · subst hk
    exact iff_of_false h.after h.before
  · rw [h.node?_of_ne k hk]

theorem node?_ne_directory_iff : d'.node? k ≠ some .directory ↔ d.node? k ≠ some .directory :=
  not_congr h.node?_eq_directory_iff

/-- Such disks have the same ways: every step starts from a directory, and they have the same
directories. -/
theorem walk_iff (steps : List String) {start last : Location} :
    d'.walk start steps = .ok last ↔ d.walk start steps = .ok last := by
  induction steps generalizing start with
  | nil => rfl
  | cons step rest ih =>
    rw [walk_cons_eq_ok_iff, walk_cons_eq_ok_iff, h.node?_eq_directory_iff]
    simp only [ih]

/-- On such disks, paths lead to the same locations. -/
theorem resolve_iff : d'.resolve path = .ok k ↔ d.resolve path = .ok k := by
  rw [resolve_eq_ok_iff, resolve_eq_ok_iff, h.workingDirectory, h.walk_iff]

end AgreeBut

theorem resolve_put {content : ByteArray} (h : d.node? l ≠ some .directory) :
    (d.put l (.file content)).resolve path = .ok k ↔ d.resolve path = .ok k :=
  (agreeBut_put h).resolve_iff

theorem look_eq_ok_iff :
    d.look path = .ok (l, n) ↔
      d.resolve path = .ok l ∧ d.node? l = some n ∧
        (n = .directory ∨ Path.endsInSlash path = false) := by
  constructor
  · intro h
    unfold look at h
    split at h
    · cases h
    · next k hresolve =>
      split at h
      · cases h
      · next content hnode =>
        split at h
        · cases h
        · next hslash =>
          cases h
          exact ⟨hresolve, hnode, .inr (Bool.of_not_eq_true hslash)⟩
      · next hnode =>
        cases h
        exact ⟨hresolve, hnode, .inl rfl⟩
  · rintro ⟨hresolve, hnode, hslash⟩
    simp only [look, hresolve, hnode]
    cases n with
    | directory => rfl
    | file content =>
      have hslash : Path.endsInSlash path = false := hslash.resolve_left Node.noConfusion
      simp only [hslash, Bool.false_eq_true, if_false]

/-- A path that leads elsewhere finds the same on both disks. -/
theorem AgreeBut.look_iff {d' : Disk} (h : AgreeBut l d d') (hpath : d.resolve path ≠ .ok l) :
    d'.look path = .ok (k, n) ↔ d.look path = .ok (k, n) := by
  rw [look_eq_ok_iff, look_eq_ok_iff, h.resolve_iff]
  refine and_congr_right fun hk => ?_
  have hne : k ≠ l := by
    rintro rfl
    exact hpath hk
  rw [h.node?_of_ne k hne]

theorem look_put {content : ByteArray} (h : d.node? l ≠ some .directory)
    (hpath : d.resolve path ≠ .ok l) :
    (d.put l (.file content)).look path = .ok (k, n) ↔ d.look path = .ok (k, n) :=
  (agreeBut_put h).look_iff hpath

theorem isFile_eq_true_iff :
    d.isFile path = true ↔ ∃ k content, d.look path = .ok (k, .file content) := by
  unfold isFile
  split
  · next k content hlook => exact ⟨fun _ => ⟨k, content, hlook⟩, fun _ => rfl⟩
  · next hlook =>
    simp only [Bool.false_eq_true, false_iff, not_exists]
    exact hlook

theorem pathExists_eq_true_iff : d.pathExists path = true ↔ ∃ k n, d.look path = .ok (k, n) := by
  unfold pathExists
  split
  · next found hlook => exact ⟨fun _ => ⟨found.1, found.2, hlook⟩, fun _ => rfl⟩
  · next e hlook => simp [hlook]

theorem readText_eq_ok_iff {text : String} :
    d.readText path = .ok text ↔ ∃ k, d.look path = .ok (k, .file text.toUTF8) := by
  constructor
  · intro h
    unfold readText at h
    split at h
    · cases h
    · cases h
    · next k content hlook =>
      split at h
      · next found htext =>
        cases h
        rw [fromUTF8?_eq_some_iff.1 htext] at hlook
        exact ⟨k, hlook⟩
      · cases h
  · rintro ⟨k, hlook⟩
    rw [readText, hlook]
    dsimp only
    rw [fromUTF8?_eq_some_iff.2 rfl]

section Elsewhere

variable {content : ByteArray} (h : d.node? l ≠ some .directory) (hpath : d.resolve path ≠ .ok l)

include h hpath

theorem isFile_put : (d.put l (.file content)).isFile path = d.isFile path := by
  rw [Bool.eq_iff_iff, isFile_eq_true_iff, isFile_eq_true_iff]
  simp only [look_put h hpath]

theorem pathExists_put : (d.put l (.file content)).pathExists path = d.pathExists path := by
  rw [Bool.eq_iff_iff, pathExists_eq_true_iff, pathExists_eq_true_iff]
  simp only [look_put h hpath]

theorem readText_put {text : String} :
    (d.put l (.file content)).readText path = .ok text ↔ d.readText path = .ok text := by
  rw [readText_eq_ok_iff, readText_eq_ok_iff]
  simp only [look_put h hpath]

end Elsewhere

/-! ## Targets -/

theorem target_eq_ok_iff :
    d.target path = .ok l ↔
      d.resolve path = .ok l ∧ d.node? l ≠ some .directory ∧ Path.endsInSlash path = false := by
  constructor
  · intro h
    unfold target at h
    split at h
    · cases h
    · next k hresolve =>
      split at h
      · cases h
      · next content hnode =>
        split at h
        · cases h
        · next hslash =>
          cases h
          exact ⟨hresolve, by simp [hnode], Bool.of_not_eq_true hslash⟩
      · next hnode =>
        split at h
        · cases h
        · next hslash =>
          cases h
          exact ⟨hresolve, by simp [hnode], Bool.of_not_eq_true hslash⟩
  · rintro ⟨hresolve, hnode, hslash⟩
    simp only [target, hresolve, hslash, Bool.false_eq_true, if_false]
    split
    · next hdirectory => exact absurd hdirectory hnode
    · rfl
    · rfl

/-- A file may be moved over a path that ends in a name, unless a directory stands there. -/
theorem moveTarget_eq_ok_iff :
    d.moveTarget path = .ok l ↔
      d.resolve path = .ok l ∧ d.node? l ≠ some .directory ∧ Path.endsInSlash path = false ∧
        ∀ step ∈ (Path.segments path).getLast?, step ≠ "." ∧ step ≠ ".." := by
  have hsteps : (Path.segments path).getLast?.any (fun s => s == "." || s == "..") = false ↔
      ∀ step ∈ (Path.segments path).getLast?, step ≠ "." ∧ step ≠ ".." := by
    cases (Path.segments path).getLast? <;> simp
  rw [← hsteps]
  constructor
  · intro h
    unfold moveTarget at h
    split at h
    · cases h
    · next k hresolve =>
      split at h
      · cases h
      · next hlast =>
        split at h
        · cases h
        · next hslash =>
          split at h
          · cases h
          · next hnode =>
            cases h
            exact ⟨hresolve, hnode, Bool.of_not_eq_true hslash,
              Bool.of_not_eq_true hlast⟩
  · rintro ⟨hresolve, hnode, hslash, hlast⟩
    simp only [moveTarget, hresolve, hslash, hlast, Bool.false_eq_true, if_false]

theorem AgreeBut.target_iff {d' : Disk} (h : AgreeBut l d d') :
    d'.target path = .ok k ↔ d.target path = .ok k := by
  rw [target_eq_ok_iff, target_eq_ok_iff, h.resolve_iff, h.node?_ne_directory_iff]

theorem AgreeBut.moveTarget_iff {d' : Disk} (h : AgreeBut l d d') :
    d'.moveTarget path = .ok k ↔ d.moveTarget path = .ok k := by
  rw [moveTarget_eq_ok_iff, moveTarget_eq_ok_iff, h.resolve_iff, h.node?_ne_directory_iff]

theorem target_put {content : ByteArray} (h : d.node? l ≠ some .directory) :
    (d.put l (.file content)).target path = .ok k ↔ d.target path = .ok k :=
  (agreeBut_put h).target_iff

theorem moveTarget_put {content : ByteArray} (h : d.node? l ≠ some .directory) :
    (d.put l (.file content)).moveTarget path = .ok k ↔ d.moveTarget path = .ok k :=
  (agreeBut_put h).moveTarget_iff

/-- What is written to a path is found there. -/
theorem look_put_self {content : ByteArray} (h : d.target path = .ok l) :
    (d.put l (.file content)).look path = .ok (l, .file content) := by
  obtain ⟨hresolve, hnode, hslash⟩ := target_eq_ok_iff.1 h
  exact look_eq_ok_iff.2
    ⟨(resolve_put hnode).2 hresolve, node?_put_self (ne_nil_of_node? hnode), .inr hslash⟩

/-- A file that may be moved over may be written. -/
theorem target_of_moveTarget (h : d.moveTarget path = .ok l) : d.target path = .ok l := by
  obtain ⟨hresolve, hnode, hslash, -⟩ := moveTarget_eq_ok_iff.1 h
  exact target_eq_ok_iff.2 ⟨hresolve, hnode, hslash⟩

/-- Where a path leads to no file and a file may be written, nothing stands. -/
theorem node?_eq_none_of_target (h : d.target path = .ok l) (hfile : d.isFile path = false) :
    d.node? l = none := by
  obtain ⟨hresolve, hnode, hslash⟩ := target_eq_ok_iff.1 h
  cases hfound : d.node? l with
  | none => rfl
  | some found =>
    cases found with
    | directory => exact absurd hfound hnode
    | file content =>
      have hlook := look_eq_ok_iff.2 ⟨hresolve, hfound, .inr hslash⟩
      rw [isFile_eq_true_iff.2 ⟨l, content, hlook⟩] at hfile
      cases hfile

/-! ## Removals and moves -/

section Steps

variable {d' : Disk} {beside : String}

theorem remove_eq_ok_iff :
    d.remove path = .ok d' ↔
      ∃ l content, d.look path = .ok (l, .file content) ∧ d' = d.erase l := by
  unfold remove
  split
  · next e hlook => simp [hlook]
  · next l hlook => simp [hlook]
  · next l content hlook => simp [hlook, eq_comm]

theorem rename_eq_ok {old new : String} (h : d.rename old new = .ok d') :
    ∃ l k content, d.look old = .ok (l, .file content) ∧ d.moveTarget new = .ok k ∧
      d' = (d.erase l).put k (.file content) := by
  unfold rename at h
  split at h
  · cases h
  · cases h
  · next l content hlook =>
    split at h
    · cases h
    · next k hk => exact ⟨l, k, content, hlook, hk, (Except.ok.inj h).symm⟩

theorem target_of_look {content : ByteArray} (h : d.look path = .ok (l, .file content)) :
    d.target path = .ok l := by
  obtain ⟨hresolve, hnode, hslash⟩ := look_eq_ok_iff.1 h
  refine target_eq_ok_iff.2 ⟨hresolve, ?_, hslash.resolve_left Node.noConfusion⟩
  rw [hnode]
  exact fun heq => Node.noConfusion (Option.some.inj heq)

theorem isFile_of_remove_error {e : FileError} (h : d.remove path = .error e) :
    d.isFile path = false := by
  rw [← Bool.not_eq_true, isFile_eq_true_iff]
  rintro ⟨l, content, hlook⟩
  rw [remove_eq_ok_iff.2 ⟨l, content, hlook, rfl⟩] at h
  cases h

theorem isFile_of_remove_ok (h : d.remove path = .ok d') : d'.isFile path = false := by
  obtain ⟨l, content, hlook, rfl⟩ := remove_eq_ok_iff.1 h
  obtain ⟨hresolve, hnode, -⟩ := target_eq_ok_iff.1 (target_of_look hlook)
  rw [← Bool.not_eq_true, isFile_eq_true_iff]
  rintro ⟨k, content', hlook'⟩
  obtain ⟨hresolve', hnode', -⟩ := look_eq_ok_iff.1 hlook'
  rw [(agreeBut_erase hnode).resolve_iff, hresolve] at hresolve'
  cases hresolve'
  rw [node?_erase (ne_nil_of_node? hnode), if_pos rfl] at hnode'
  cases hnode'

section Move

variable {content : ByteArray} {k : Location} (hl : d.target beside = .ok l)
  (hk : d.moveTarget path = .ok k)

include hl hk

theorem agreeBut_erase_put :
    AgreeBut k (d.erase l) ((d.erase l).put k (.file content)) := by
  have herase := agreeBut_erase (target_eq_ok_iff.1 hl).2.1
  exact agreeBut_put (moveTarget_eq_ok_iff.1 (herase.moveTarget_iff.2 hk)).2.1

/-- A file that was moved is found at the new path. -/
theorem look_erase_put :
    ((d.erase l).put k (.file content)).look path = .ok (k, .file content) := by
  have herase := agreeBut_erase (target_eq_ok_iff.1 hl).2.1
  exact look_put_self (target_of_moveTarget (herase.moveTarget_iff.2 hk))

/-- Nothing else than the two ends of a move is touched. -/
theorem node?_erase_put {j : Location} (hjl : j ≠ l) (hjk : j ≠ k) :
    ((d.erase l).put k (.file content)).node? j = d.node? j := by
  have herase := agreeBut_erase (target_eq_ok_iff.1 hl).2.1
  rw [(agreeBut_erase_put hl hk).node?_of_ne j hjk, herase.node?_of_ne j hjl]

/-- Nothing is found at the old path of a file that was moved. -/
theorem pathExists_erase_put (hne : l ≠ k) :
    ((d.erase l).put k (.file content)).pathExists beside = false := by
  have herase := agreeBut_erase (target_eq_ok_iff.1 hl).2.1
  have hput : AgreeBut k (d.erase l) ((d.erase l).put k (.file content)) :=
    agreeBut_erase_put hl hk
  rw [← Bool.not_eq_true, pathExists_eq_true_iff]
  rintro ⟨j, n, hlook⟩
  obtain ⟨hresolve, hnode, -⟩ := look_eq_ok_iff.1 hlook
  rw [hput.resolve_iff, herase.resolve_iff, (target_eq_ok_iff.1 hl).1] at hresolve
  cases hresolve
  rw [hput.node?_of_ne l hne, node?_erase (ne_nil_of_node? herase.before), if_pos rfl] at hnode
  cases hnode

end Move

end Steps

end Disk

end KeyDispatch
