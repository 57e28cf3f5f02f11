import KeyDispatch.Artifact.CppHeader
import KeyDispatch.Proofs.PrefixCode

/-!
# What a C++ header tells of its table

The cases of a header's two switches tell what they were written for. A statement needs no character
behind it to be told: it ends with the bracket, the semicolon or the directive that closes it. What
the header does not write cannot be told: the codes of the keys, and characters of two UTF-16 units.
-/

namespace KeyDispatch

open Token

namespace CppHeader

/-! ## Statements -/

theorem modifierChoice_append_inj {m : Modifier} {set unset set' unset' : Keysym} {x y : List Char}
    (h : (modifierChoice m set unset).toList ++ x = (modifierChoice m set' unset').toList ++ y) :
    set = set' ∧ unset = unset' ∧ x = y := by
  unfold modifierChoice at h
  simp only [-String.reduceToList, String.toList_append, List.append_assoc,
    List.append_cancel_left_eq] at h
  exact keysyms_append_inj (fun _ => rfl) (fun _ => rfl) h

/-- How the statement of a resolution begins. -/
def opening : Resolution.Shape → List Char
  | .fixed => "return ".toList
  | .shift => "if (qtModifiers & ".toList ++ Modifier.shift.enumerator.toList
  | .keypad => "if (qtModifiers & ".toList ++ Modifier.keypad.enumerator.toList
  | .swapped platform => "\n".toList ++ ("#if ".toList ++ (platformCondition platform).toList)

theorem opening_apart (j k : Resolution.Shape) (h : opening j <+: opening k) : j = k := by
  rcases j with _ | _ | _ | ⟨_ | _⟩ <;> rcases k with _ | _ | _ | ⟨_ | _⟩ <;>
    first | rfl | exact absurd h (by decide)

theorem opening_prefix_statement (r : Resolution) :
    opening r.shape <+: (statement r).toList := by
  have hmodifier : ∀ (m : Modifier) (set unset : Keysym),
      "if (qtModifiers & ".toList ++ m.enumerator.toList <+:
        (modifierChoice m set unset).toList := by
    intro m set unset
    unfold modifierChoice
    simp only [-String.reduceToList, String.toList_append, List.append_assoc,
      List.prefix_append_right_inj]
    exact List.prefix_append _ _
  cases r with
  | fixed keysym =>
    unfold statement opening Resolution.shape
    simp only [-String.reduceToList, String.toList_append, List.append_assoc]
    exact List.prefix_append _ _
  | shift lower upper => exact hmodifier .shift upper lower
  | keypad plain onKeypad => exact hmodifier .keypad onKeypad plain
  | swapped normal exchanged platform =>
    unfold statement opening Resolution.shape platformBlock
    simp only [-String.reduceToList, String.toList_append, List.append_assoc,
      List.prefix_append_right_inj]
    exact List.prefix_append _ _

/-- A resolution is told from its statement, by induction on the resolution: the two branches of a
block are told one after the other. -/
theorem statement_append_inj {r s : Resolution} {x y : List Char}
    (h : (statement r).toList ++ x = (statement s).toList ++ y) : r = s ∧ x = y := by
  have hsame : ∀ {r s : Resolution} {x y : List Char},
      (statement r).toList ++ x = (statement s).toList ++ y → r.shape = s.shape :=
    view_eq_of_append opening_apart opening_prefix_statement
  have hshape := hsame h
  induction r generalizing s x y with
  | fixed keysym =>
    cases s with
    | fixed keysym' =>
      unfold statement at h
      simp only [-String.reduceToList, String.toList_append, List.append_assoc,
        List.append_cancel_left_eq] at h
      obtain ⟨hkeysym, hrest⟩ := keysym_append_inj (by rfl) (by rfl) h
      exact ⟨congrArg _ hkeysym, List.append_cancel_left hrest⟩
    | _ => cases hshape
  | shift lower upper =>
    cases s with
    | shift lower' upper' =>
      obtain ⟨rfl, rfl, hrest⟩ := modifierChoice_append_inj (m := .shift) h
      exact ⟨rfl, hrest⟩
    | _ => cases hshape
  | keypad plain onKeypad =>
    cases s with
    | keypad plain' onKeypad' =>
      obtain ⟨rfl, rfl, hrest⟩ := modifierChoice_append_inj (m := .keypad) h
      exact ⟨rfl, hrest⟩
    | _ => cases hshape
  | swapped normal exchanged platform ihn ihe =>
    cases s with
    | swapped normal' exchanged' platform' =>
      obtain rfl : platform = platform' := Resolution.Shape.swapped.inj hshape
      unfold statement platformBlock at h
      simp only [-String.reduceToList, String.toList_append, List.append_assoc,
        List.append_cancel_left_eq] at h
      obtain ⟨he, hinner⟩ := ihe h (hsame h)
      have hinner := List.append_cancel_left (List.append_cancel_left hinner)
      obtain ⟨hn, hbehind⟩ := ihn hinner (hsame hinner)
      exact ⟨by rw [he, hn], List.append_cancel_left (List.append_cancel_left hbehind)⟩
    | _ => cases hshape

/-! ## Cases -/

/-- What stands behind the colon of a key's case. -/
def caseBody : Resolution → String
  | .swapped normal exchanged platform => statement (.swapped normal exchanged platform)
  | other => " " ++ statement other ++ "\n"

theorem textOfLines_keyCase (e : Entry) :
    Artifact.textOfLines (keyCase e) =
      "    case Qt::Key_" ++ e.name ++ ":" ++ caseBody e.resolution := by
  unfold keyCase caseBody
  cases e.resolution <;>
    simp only [-String.reduceToList, Artifact.textOfLines, statement, String.append_assoc,
      String.append_empty] <;> rfl

theorem caseBody_append_inj {r s : Resolution} {x y : List Char}
    (h : (caseBody r).toList ++ x = (caseBody s).toList ++ y) : r = s ∧ x = y := by
  -- a block starts on a line of its own, any other statement behind a blank
  have hblank : ∀ {normal exchanged platform} (v w : List Char),
      (statement (.swapped normal exchanged platform)).toList ++ v ≠ " ".toList ++ w := by
    intro normal exchanged platform v w he
    obtain ⟨rest, hrest⟩ := opening_prefix_statement (.swapped normal exchanged platform)
    rw [← hrest] at he
    cases he
  unfold caseBody at h
  split at h <;> split at h
  · exact statement_append_inj h
  · simp only [-String.reduceToList, String.toList_append, List.append_assoc] at h
    exact absurd h (hblank _ _)
  · simp only [-String.reduceToList, String.toList_append, List.append_assoc] at h
    exact absurd h.symm (hblank _ _)
  · simp only [-String.reduceToList, String.toList_append, List.append_assoc,
      List.append_cancel_left_eq] at h
    obtain ⟨hresolution, hrest⟩ := statement_append_inj h
    exact ⟨hresolution, List.append_cancel_left hrest⟩

theorem reveals_keyCase :
    Reveals Entry.IsNamed (fun e => (Artifact.textOfLines (keyCase e)).toList) Entry.case := by
  intro e f he hf x y h
  simp only [-String.reduceToList, textOfLines_keyCase, String.toList_append, List.append_assoc,
    List.append_cancel_left_eq] at h
  obtain ⟨hname, h⟩ := name_append_inj he hf (by rfl) (by rfl) h
  rw [List.append_cancel_left_eq] at h
  obtain ⟨hresolution, h⟩ := caseBody_append_inj h
  exact ⟨Prod.ext hname hresolution, h⟩

theorem reveals_textCase : Reveals (fun _ => True)
    (fun p : UInt32 × Keysym => (Artifact.textOfLines [textCase p.1 p.2]).toList) id := by
  unfold textCase
  simp only [-String.reduceToList, toList_textOfLines_singleton, String.toList_append,
    List.append_assoc]
  exact reveals_numbered (fun _ => rfl) (fun _ => rfl)

theorem prefix_keyCase (e : Entry) :
    "    case".toList <+: (Artifact.textOfLines (keyCase e)).toList := by
  simp only [-String.reduceToList, textOfLines_keyCase, String.toList_append, List.append_assoc]
  exact (show "    case".toList <+: "    case Qt::Key_".toList by decide).trans
    (List.prefix_append _ _)

theorem prefix_textCase (p : UInt32 × Keysym) :
    "      case ".toList <+: (Artifact.textOfLines [textCase p.1 p.2]).toList := by
  unfold textCase
  simp only [-String.reduceToList, toList_textOfLines_singleton, String.toList_append,
    List.append_assoc]
  exact List.prefix_append _ _

/-! ## The header -/

/-- The parts of a header: before the cases of the characters, these, and so on. -/
theorem toList_render (header : CppHeader) (t : DecisionTable) :
    (header.render t).toList =
      (Artifact.textOfLines (banner ++ includes header.includeGuard
        ++ functionHead header.functionName)).toList
      ++ ((t.textCases.toList.filter fun p => isUnit p.1).flatMap
        (fun p => (Artifact.textOfLines [textCase p.1 p.2]).toList)
      ++ ((Artifact.textOfLines textEnd).toList
      ++ ((Artifact.textOfLines ["  switch (qtKey) \x7b"]).toList
      ++ (t.entries.toList.flatMap (fun e => (Artifact.textOfLines (keyCase e)).toList)
      ++ ((Artifact.textOfLines
        ["    default: return 0;", "  \x7d", "\x7d", "#endif"]).toList
      ++ []))))) := by
  unfold render lines keySwitch
  simp only [-String.reduceToList, List.map_eq_flatMap, toList_textOfLines_append,
    toList_textOfLines_flatMap, List.append_assoc, List.append_nil]

/-- Tables with the same header under a name and a guard have the same cases of one-unit characters
and the same names and resolutions. -/
theorem content_of_render_eq {header : CppHeader} {t u : DecisionTable}
    (ht : ∀ e ∈ t.entries.toList, e.IsNamed) (hu : ∀ e ∈ u.entries.toList, e.IsNamed)
    (h : header.render t = header.render u) :
    (t.textCases.toList.filter fun p => isUnit p.1) =
        (u.textCases.toList.filter fun p => isUnit p.1) ∧
      t.entries.toList.map Entry.case = u.entries.toList.map Entry.case := by
  have htext := congrArg String.toList h
  rw [toList_render, toList_render] at htext
  have htextArms := List.append_cancel_left htext
  obtain ⟨htextCases, hswitch⟩ := reveals_textCase.flatMap_append_inj prefix_textCase (by decide)
    (fun _ _ => trivial) (fun _ _ => trivial) htextArms
  have hkeyCases := List.append_cancel_left hswitch
  obtain ⟨hcases, -⟩ :=
    reveals_keyCase.flatMap_append_inj prefix_keyCase (by decide) ht hu hkeyCases
  rw [List.map_id, List.map_id] at htextCases
  exact ⟨htextCases, hcases⟩

end CppHeader

end KeyDispatch
