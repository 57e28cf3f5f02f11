import KeyDispatch.Files.Output
import KeyDispatch.Proofs.DiskChange
import Mathlib.Data.List.TakeWhile

/-!
# The place of a temporary file

A path that ends in a name leads, if anywhere, to a location whose last step is the name. The
temporary file beside an output file has another name than the output file, so the two never share
a location.
-/

namespace KeyDispatch

namespace Path

/-- The path ends in a name, which is all of it or stands behind a slash. -/
def EndsInName (path name : String) : Prop :=
  path = name ∨ ∃ front, path.toList = front ++ '/' :: name.toList

/-- The text may stand for one step of a path. -/
structure IsName (name : String) : Prop where
  ne_empty : name ≠ ""
  slash_notMem : '/' ∉ name.toList

theorem IsName.toList_ne_nil {name : String} (h : IsName name) : name.toList ≠ [] :=
  fun hnil => h.ne_empty (String.toList_eq_nil_iff.1 hnil)

theorem segmentsFrom_of_notMem {acc cs : List Char} (hcs : '/' ∉ cs)
    (hne : acc.reverse ++ cs ≠ []) :
    segmentsFrom acc cs = [String.ofList (acc.reverse ++ cs)] := by
  induction cs generalizing acc with
  | nil =>
    rw [List.append_nil] at hne ⊢
    rw [segmentsFrom, if_neg (by simpa using hne)]
  | cons c cs ih =>
    obtain ⟨hc, hcs⟩ := not_or.1 (List.mem_cons.not.1 hcs)
    have hstep : (c :: acc).reverse ++ cs = acc.reverse ++ c :: cs := by simp
    rw [segmentsFrom, if_neg (Ne.symm hc), ih hcs (hstep ▸ hne), hstep]

theorem getLast?_segmentsFrom {cs : List Char} (hcs : '/' ∉ cs) (hne : cs ≠ []) (front : List Char)
    (acc : List Char) :
    (segmentsFrom acc (front ++ '/' :: cs)).getLast? = some (String.ofList cs) := by
  induction front generalizing acc with
  | nil =>
    have hlast : segmentsFrom [] cs = [String.ofList cs] := segmentsFrom_of_notMem hcs hne
    rw [List.nil_append, segmentsFrom, if_pos rfl, hlast]
    split <;> rfl
  | cons c front ih =>
    rw [List.cons_append, segmentsFrom]
    split
    · split
      · exact ih []
      · rw [List.getLast?_cons, ih, Option.getD_some]
    · exact ih (c :: acc)

theorem segmentsFrom_append_slash (acc cs : List Char) :
    segmentsFrom acc (cs ++ ['/']) = segmentsFrom acc cs := by
  induction cs generalizing acc with
  | nil => simp [segmentsFrom]
  | cons c cs ih =>
    rw [List.cons_append, segmentsFrom, segmentsFrom, ih, ih]

/-- The last step of a path is the name that it ends in. -/
theorem EndsInName.getLast?_segments {path name : String} (h : EndsInName path name)
    (hname : IsName name) : (segments path).getLast? = some name := by
  have hne := hname.toList_ne_nil
  obtain rfl | ⟨front, hpath⟩ := h
  · rw [segments, segmentsFrom_of_notMem hname.slash_notMem (by simpa using hne)]
    simp
  · rw [segments, hpath, getLast?_segmentsFrom hname.slash_notMem hne, String.ofList_toList]

theorem endsInName_join (base : String) {name : String} (hname : IsName name) :
    EndsInName (join base name) name := by
  have habsolute : isAbsolute name = false := by
    rw [isAbsolute, beq_eq_false_iff_ne]
    intro hhead
    exact hname.slash_notMem (List.mem_of_mem_head? hhead)
  rw [join, habsolute, if_neg Bool.false_ne_true]
  by_cases hempty : base = ""
  · subst hempty
    exact .inl rfl
  · refine .inr ?_
    split
    · next hslash =>
      have hlast : base.toList.getLast? = some '/' := by
        simpa [String.isEmpty_iff, hempty, endsInSlash] using hslash
      obtain ⟨front, hfront⟩ := List.getLast?_eq_some_iff.1 hlast
      exact ⟨front, by rw [String.toList_append, hfront, List.append_assoc]; rfl⟩
    · exact ⟨base.toList, by simp⟩

/-- The slashes and lone dots at the end of a path are no last step of their own, but for a dot. -/
theorem getLast?_segmentsFrom_dropIdle (back : List Char) :
    (segmentsFrom [] back.reverse).getLast? = some "." ∨
      (segmentsFrom [] back.reverse).getLast? =
        (segmentsFrom [] (dropIdle back).reverse).getLast? := by
  induction back using dropIdle.induct with
  | case1 cs ih =>
    rw [dropIdle, List.reverse_cons, segmentsFrom_append_slash]
    exact ih
  | case2 cs ih =>
    left
    rw [List.reverse_cons, List.reverse_cons, List.append_assoc, List.singleton_append]
    exact getLast?_segmentsFrom (by decide) (by decide) _ _
  | case3 cs hslash hdot =>
    right
    rw [dropIdle]
    · exact hslash
    · exact hdot

section Split

variable {path directory name : String} (h : split? path = some (directory, name))

include h

theorem isName_of_split? : IsName name := by
  simp only [split?] at h
  split at h
  · cases h
  · next hname =>
    cases h
    refine ⟨fun hempty => hname (.inl hempty), ?_⟩
    rw [String.toList_ofList, List.mem_reverse]
    intro hmem
    simpa using List.mem_takeWhile_imp hmem

theorem ne_dots_of_split? : name ≠ "." ∧ name ≠ ".." := by
  simp only [split?] at h
  split at h
  · cases h
  · next hname =>
    cases h
    exact ⟨fun hdot => hname (.inr (.inl hdot)), fun hdots => hname (.inr (.inr hdots))⟩

/-- But for the slashes and lone dots at its end, a path ends in the name that is split off. -/
theorem endsInName_dropIdle_of_split? :
    EndsInName (String.ofList (dropIdle path.toList.reverse).reverse) name := by
  simp only [split?] at h
  split at h
  · cases h
  · cases h
    generalize dropIdle path.toList.reverse = back
    have hparts : (back.dropWhile (· != '/')).reverse ++ (back.takeWhile (· != '/')).reverse =
        back.reverse := by
      rw [← List.reverse_append, List.takeWhile_append_dropWhile]
    cases hrest : back.dropWhile (· != '/') with
    | nil =>
      rw [hrest, List.reverse_nil, List.nil_append] at hparts
      exact .inl (congrArg String.ofList hparts.symm)
    | cons c rest =>
      -- the first character behind the name, from the end, is the slash
      obtain rfl : c = '/' := by
        have hc := List.head?_dropWhile_not (· != '/') back
        simpa [hrest] using hc
      refine .inr ⟨rest.reverse, ?_⟩
      rw [hrest, List.reverse_cons, List.append_assoc, List.singleton_append] at hparts
      rw [String.toList_ofList, String.toList_ofList, hparts]

/-- The last step of a path is the name that is split off, or a dot behind it. -/
theorem getLast?_segments_of_split? :
    (segments path).getLast? = some name ∨ (segments path).getLast? = some "." := by
  have hlast := (endsInName_dropIdle_of_split? h).getLast?_segments (isName_of_split? h)
  rw [segments, String.toList_ofList] at hlast
  have hidle := getLast?_segmentsFrom_dropIdle path.toList.reverse
  rw [List.reverse_reverse, hlast] at hidle
  exact hidle.symm

end Split

end Path

namespace OutputFile

/-- The name of the temporary file beside a file. -/
def temporaryName (processId : Nat) (name : String) : String :=
  name ++ "." ++ toString processId ++ ".tmp"

/-- The name of the temporary file is longer than that of the file by more than four letters. -/
theorem temporaryName_ne (processId : Nat) {name other : String}
    (h : other.toList.length ≤ name.toList.length + 4) : temporaryName processId name ≠ other := by
  rintro rfl
  simp only [temporaryName, String.toList_append, List.length_append, String.reduceToList,
    List.length_cons, List.length_nil] at h
  omega

theorem isName_temporaryName (processId : Nat) {name : String} (h : Path.IsName name) :
    Path.IsName (temporaryName processId name) := by
  constructor
  · exact temporaryName_ne processId (by simp)
  · have hdigits : '/' ∉ Nat.toDigits 10 processId := fun hmem =>
      absurd (Nat.isDigit_of_mem_toDigits (by decide) (by decide) hmem) (by decide)
    simp [temporaryName, String.toList_append, h.slash_notMem, hdigits]

end OutputFile

namespace Disk

variable {d : Disk}

/-- Steps that end in a name lead to a location that ends in it. -/
theorem getLast?_of_walk {steps : List String} {start last : Location} {name : String}
    (h : d.walk start steps = .ok last) (hname : steps.getLast? = some name)
    (hsame : name ≠ ".") (hparent : name ≠ "..") : last.getLast? = some name := by
  induction steps generalizing start with
  | nil => cases hname
  | cons step rest ih =>
    obtain ⟨-, next, hnext, hrest⟩ := walk_cons_eq_ok_iff.1 h
    cases rest with
    | nil =>
      obtain rfl : step = name := Option.some.inj hname
      obtain rfl := Except.ok.inj hrest
      cases hnext with
      | same hstep => exact absurd hstep hsame
      | up hstep => exact absurd hstep hparent
      | into _ _ _ => exact List.getLast?_concat
    | cons step' rest => exact ih hrest (List.getLast?_cons_cons.symm.trans hname)

theorem getLast?_of_resolve {path name : String} {l : Location} (h : d.resolve path = .ok l)
    (hlast : (Path.segments path).getLast? = some name) (hsame : name ≠ ".")
    (hparent : name ≠ "..") : l.getLast? = some name := by
  obtain ⟨-, hwalk⟩ := resolve_eq_ok_iff.1 h
  exact getLast?_of_walk hwalk hlast hsame hparent

/-- Where a walk's last step is a dot, there is a directory. -/
theorem node?_of_walk_dot {steps : List String} {start last : Location}
    (h : d.walk start steps = .ok last) (hdot : steps.getLast? = some ".") :
    d.node? last = some .directory := by
  induction steps generalizing start with
  | nil => cases hdot
  | cons step rest ih =>
    obtain ⟨hdirectory, next, hnext, hrest⟩ := walk_cons_eq_ok_iff.1 h
    cases rest with
    | nil =>
      obtain rfl : step = "." := Option.some.inj hdot
      obtain rfl := Except.ok.inj hrest
      cases hnext with
      | same _ => exact hdirectory
      | up hstep => exact absurd hstep (by decide)
      | into hsame _ _ => exact absurd rfl hsame
    | cons step' rest => exact ih hrest (List.getLast?_cons_cons.symm.trans hdot)

theorem node?_of_resolve_dot {path : String} {l : Location} (h : d.resolve path = .ok l)
    (hdot : (Path.segments path).getLast? = some ".") : d.node? l = some .directory := by
  obtain ⟨-, hwalk⟩ := resolve_eq_ok_iff.1 h
  exact node?_of_walk_dot hwalk hdot

section Temporary

variable {processId : Nat} {path directory name : String} {beside l : Location}
  (hsplit : Path.split? path = some (directory, name))
  (hbeside : d.target (OutputFile.temporary processId directory name) = .ok beside)

include hsplit hbeside

/-- The path of an output file never leads to where its temporary file is written. -/
theorem resolve_ne_temporary : d.resolve path ≠ .ok beside := by
  intro hresolve
  obtain ⟨htemporary, hnode, -⟩ := target_eq_ok_iff.1 hbeside
  rcases Path.getLast?_segments_of_split? hsplit with hlast | hdot
  · have hdots := Path.ne_dots_of_split? hsplit
    have hname := OutputFile.isName_temporaryName processId (Path.isName_of_split? hsplit)
    have hbesideLast : beside.getLast? = some (OutputFile.temporaryName processId name) :=
      getLast?_of_resolve htemporary
        ((Path.endsInName_join directory hname).getLast?_segments hname)
        (OutputFile.temporaryName_ne processId (by simp))
        (OutputFile.temporaryName_ne processId (by simp))
    rw [getLast?_of_resolve hresolve hlast hdots.1 hdots.2, Option.some.injEq] at hbesideLast
    exact OutputFile.temporaryName_ne processId (Nat.le_add_right _ 4) hbesideLast.symm
  · exact hnode (node?_of_resolve_dot hresolve hdot)

/-- The temporary file is never the output file. -/
theorem temporary_ne_output (hl : d.moveTarget path = .ok l) : beside ≠ l := by
  rintro rfl
  exact resolve_ne_temporary hsplit hbeside (moveTarget_eq_ok_iff.1 hl).1

end Temporary

end Disk

end KeyDispatch
