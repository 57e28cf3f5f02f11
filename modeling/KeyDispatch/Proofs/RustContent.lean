import KeyDispatch.Artifact.RustModule
import KeyDispatch.Proofs.PrefixCode
import KeyDispatch.Proofs.TableEntries

/-!
# What a Rust module tells of its table

The text of a module has four parts that depend on the table: the constants of the keys and their
arms, the arms of the characters, and the function's name. Items of each part tell what they were
written for, and what follows a part starts otherwise than its items. So from the front to the back
the module gives away its table (`content_of_render_eq`); nothing is asked of the function's name,
which is the same in both texts.
-/

namespace KeyDispatch

open Token

/-- Entries are told from their keys and cases. -/
theorem DecisionTable.entries_eq {t u : DecisionTable}
    (hkeys : t.entries.toList.map Entry.key = u.entries.toList.map Entry.key)
    (hcases : t.entries.toList.map Entry.case = u.entries.toList.map Entry.case) :
    t.entries = u.entries := by
  have hzip : ∀ es : List Entry,
      es.map (fun e => (e.key, e.case)) = (es.map Entry.key).zip (es.map Entry.case) :=
    fun _ => List.zip_map'.symm
  have hpairs : t.entries.toList.map (fun e => (e.key, e.case)) =
      u.entries.toList.map fun e => (e.key, e.case) := by
    rw [hzip, hzip, hkeys, hcases]
  have hinjective : Function.Injective fun e : Entry => (e.key, e.case) := by
    intro e f h
    obtain ⟨hkey, hcase⟩ := Prod.ext_iff.1 h
    cases e
    cases f
    cases hkey
    cases hcase
    rfl
  exact Array.toList_inj.1 (hinjective.list_map hpairs)

namespace RustModule

/-! ## Items of the parts -/

theorem reveals_keyConstant : Reveals Entry.IsNamed
    (fun e => (Artifact.textOfLines [keyConstant e]).toList) Entry.key := by
  intro e f he hf x y h
  unfold keyConstant at h
  simp only [-String.reduceToList, toList_textOfLines_singleton, String.toList_append,
    List.append_assoc, List.append_cancel_left_eq] at h
  obtain ⟨hname, h⟩ := name_append_inj he hf (by rfl) (by rfl) h
  rw [List.append_cancel_left_eq] at h
  obtain ⟨hcode, h⟩ := hexText_append_inj (by rfl) (by rfl) h
  simp only [List.append_cancel_left_eq] at h
  exact ⟨Prod.ext hname hcode, h⟩

theorem reveals_textArm : Reveals (fun _ => True)
    (fun p : UInt32 × Keysym => (Artifact.textOfLines [textArm p.1 p.2]).toList) id := by
  unfold textArm
  simp only [-String.reduceToList, toList_textOfLines_singleton, String.toList_append,
    List.append_assoc]
  exact reveals_numbered (fun _ => rfl) (fun _ => rfl)

theorem modifierChoice_append_inj {m : Modifier} {set unset set' unset' : Keysym} {x y : List Char}
    (h : (modifierChoice m set unset).toList ++ x = (modifierChoice m set' unset').toList ++ y) :
    set = set' ∧ unset = unset' ∧ x = y := by
  unfold modifierChoice at h
  simp only [-String.reduceToList, String.toList_append, List.append_assoc,
    List.append_cancel_left_eq] at h
  exact keysyms_append_inj (fun _ => rfl) (fun _ => rfl) h

/-- How the expression of a resolution begins. -/
def opening : Resolution.Shape → List Char
  | .fixed => ['0', 'x']
  | .shift => "if qt_modifiers & ".toList ++ Modifier.shift.constant.toList
  | .keypad => "if qt_modifiers & ".toList ++ Modifier.keypad.constant.toList
  | .swapped platform => "if ".toList ++ (platformCondition platform).toList

theorem opening_apart (j k : Resolution.Shape) (h : opening j <+: opening k) : j = k := by
  rcases j with _ | _ | _ | ⟨_ | _⟩ <;> rcases k with _ | _ | _ | ⟨_ | _⟩ <;>
    first | rfl | exact absurd h (by decide)

theorem opening_prefix_expression (r : Resolution) :
    opening r.shape <+: (expression r).toList := by
  have hmodifier : ∀ (m : Modifier) (set unset : Keysym),
      "if qt_modifiers & ".toList ++ m.constant.toList <+: (modifierChoice m set unset).toList := by
    intro m set unset
    unfold modifierChoice
    simp only [-String.reduceToList, String.toList_append, List.append_assoc,
      List.prefix_append_right_inj]
    exact List.prefix_append _ _
  cases r with
  | fixed keysym => exact prefix_hexText 4 keysym.code.toNat
  | shift lower upper => exact hmodifier .shift upper lower
  | keypad plain onKeypad => exact hmodifier .keypad onKeypad plain
  | swapped normal exchanged platform =>
    unfold expression opening Resolution.shape
    simp only [-String.reduceToList, String.toList_append, List.append_assoc,
      List.prefix_append_right_inj]
    exact List.prefix_append _ _

/-- A resolution is told from its expression where no digit follows, by induction on the resolution:
the two sides of a choice by platform are told one after the other. -/
theorem expression_append_inj {r s : Resolution} {x y : List Char} (hx : breaksWord x)
    (hy : breaksWord y) (h : (expression r).toList ++ x = (expression s).toList ++ y) :
    r = s ∧ x = y := by
  have hsame : ∀ {r s : Resolution} {x y : List Char},
      (expression r).toList ++ x = (expression s).toList ++ y → r.shape = s.shape :=
    view_eq_of_append opening_apart opening_prefix_expression
  have hshape := hsame h
  induction r generalizing s x y with
  | fixed keysym =>
    cases s with
    | fixed keysym' =>
      obtain ⟨rfl, hrest⟩ := keysym_append_inj hx hy h
      exact ⟨rfl, hrest⟩
    | _ => cases hshape
  | shift lower upper =>
    cases s with
    | shift lower' upper' =>
      obtain ⟨rfl, rfl, hrest⟩ := modifierChoice_append_inj (m := .shift) h
      exact ⟨rfl, hrest⟩
    | _ => cases hshape
  | keypad plain onKeypad =>
    cases s with
    | keypad plain' onKeypad' =>
      obtain ⟨rfl, rfl, hrest⟩ := modifierChoice_append_inj (m := .keypad) h
      exact ⟨rfl, hrest⟩
    | _ => cases hshape
  | swapped normal exchanged platform ihn ihe =>
    cases s with
    | swapped normal' exchanged' platform' =>
      obtain rfl : platform = platform' := Resolution.Shape.swapped.inj hshape
      unfold expression at h
      simp only [-String.reduceToList, String.toList_append, List.append_assoc,
        List.append_cancel_left_eq] at h
      obtain ⟨he, hinner⟩ := ihe (by rfl) (by rfl) h (hsame h)
      have hinner := List.append_cancel_left hinner
      obtain ⟨hn, hbehind⟩ := ihn (by rfl) (by rfl) hinner (hsame hinner)
      exact ⟨by rw [he, hn], List.append_cancel_left hbehind⟩
    | _ => cases hshape

/-- What stands behind the arrow of a key's arm. -/
def armBody (r : Resolution) : String :=
  if r.shape = .fixed then expression r ++ ",\n"
  else "\x7b\n            " ++ expression r ++ "\n        \x7d\n"

theorem textOfLines_keyArm (e : Entry) :
    Artifact.textOfLines (keyArm e) =
      "        qt_key::Key_" ++ e.name ++ " => " ++ armBody e.resolution := by
  unfold keyArm armBody
  cases e.resolution <;>
    simp only [-String.reduceToList, Artifact.textOfLines, Resolution.shape, String.append_assoc,
      String.append_empty, reduceIte, reduceCtorEq] <;> rfl

theorem armBody_append_inj {r s : Resolution} {x y : List Char}
    (h : (armBody r).toList ++ x = (armBody s).toList ++ y) : r = s ∧ x = y := by
  -- a keysym starts with a digit, a block with a brace
  have hdigit : ∀ {r'}, r'.shape = .fixed → ∀ (v w : List Char),
      (expression r').toList ++ v ≠ "\x7b\n            ".toList ++ w := by
    intro r' hr v w he
    obtain ⟨rest, hrest⟩ := opening_prefix_expression r'
    rw [← hrest, hr] at he
    cases he
  by_cases hr : r.shape = .fixed
  · by_cases hs : s.shape = .fixed
    · simp only [-String.reduceToList, armBody, if_pos hr, if_pos hs, String.toList_append,
        List.append_assoc] at h
      obtain ⟨hresolution, h⟩ := expression_append_inj (by rfl) (by rfl) h
      exact ⟨hresolution, List.append_cancel_left h⟩
    · simp only [-String.reduceToList, armBody, if_pos hr, if_neg hs, String.toList_append,
        List.append_assoc] at h
      exact absurd h (hdigit hr _ _)
  · by_cases hs : s.shape = .fixed
    · simp only [-String.reduceToList, armBody, if_neg hr, if_pos hs, String.toList_append,
        List.append_assoc] at h
      exact absurd h.symm (hdigit hs _ _)
    · simp only [-String.reduceToList, armBody, if_neg hr, if_neg hs, String.toList_append,
        List.append_assoc] at h
      have hinner := List.append_cancel_left h
      obtain ⟨hresolution, hrest⟩ := expression_append_inj (by rfl) (by rfl) hinner
      exact ⟨hresolution, List.append_cancel_left hrest⟩

theorem reveals_keyArm :
    Reveals Entry.IsNamed (fun e => (Artifact.textOfLines (keyArm e)).toList) Entry.case := by
  intro e f he hf x y h
  simp only [-String.reduceToList, textOfLines_keyArm, String.toList_append, List.append_assoc,
    List.append_cancel_left_eq] at h
  obtain ⟨hname, h⟩ := name_append_inj he hf (by rfl) (by rfl) h
  rw [List.append_cancel_left_eq] at h
  obtain ⟨hresolution, h⟩ := armBody_append_inj h
  exact ⟨Prod.ext hname hresolution, h⟩

theorem prefix_keyConstant (e : Entry) :
    "    pub".toList <+: (Artifact.textOfLines [keyConstant e]).toList := by
  unfold keyConstant
  simp only [-String.reduceToList, toList_textOfLines_singleton, String.toList_append,
    List.append_assoc]
  exact (show "    pub".toList <+: "    pub const Key_".toList by decide).trans
    (List.prefix_append _ _)

theorem prefix_keyArm (e : Entry) :
    "        q".toList <+: (Artifact.textOfLines (keyArm e)).toList := by
  simp only [-String.reduceToList, textOfLines_keyArm, String.toList_append, List.append_assoc]
  exact (show "        q".toList <+: "        qt_key::Key_".toList by decide).trans
    (List.prefix_append _ _)

theorem prefix_textArm (p : UInt32 × Keysym) :
    "            0".toList <+: (Artifact.textOfLines [textArm p.1 p.2]).toList := by
  unfold textArm
  simp only [-String.reduceToList, toList_textOfLines_singleton, String.toList_append,
    List.append_assoc]
  rw [show "            0".toList = "            ".toList ++ ['0'] by decide,
    List.prefix_append_right_inj]
  exact ((List.prefix_append ['0'] ['x']).trans (prefix_hexText 4 p.1.toNat)).trans
    (List.prefix_append _ _)

/-! ## The module -/

/-- The parts of a module: before the constants, between them and the arms of the characters, and so
on. -/
theorem toList_render (m : RustModule) (t : DecisionTable) :
    (m.render t).toList =
      (Artifact.textOfLines (banner ++ modifierConstant .shift ++ modifierConstant .keypad
        ++ noKeysymConstant ++ ["/// `Qt::Key` values that have a keysym mapping.",
          "#[allow(non_upper_case_globals, dead_code)]", "pub mod qt_key \x7b"])).toList
      ++ (t.entries.toList.flatMap (fun e => (Artifact.textOfLines [keyConstant e]).toList)
      ++ ((Artifact.textOfLines ["\x7d", ""]).toList
      ++ ((Artifact.textOfLines (functionHead m.functionName)).toList
      ++ (t.textCases.toList.flatMap
        (fun p => (Artifact.textOfLines [textArm p.1 p.2]).toList)
      ++ ((Artifact.textOfLines textEnd).toList
      ++ ((Artifact.textOfLines ["    match qt_key \x7b"]).toList
      ++ (t.entries.toList.flatMap (fun e => (Artifact.textOfLines (keyArm e)).toList)
      ++ ((Artifact.textOfLines ["        _ => NO_KEYSYM,", "    \x7d", "\x7d"]).toList
      ++ [])))))))) := by
  unfold render lines keyConstants keyMatch
  simp only [-String.reduceToList, List.map_eq_flatMap, toList_textOfLines_append,
    toList_textOfLines_flatMap, List.append_assoc, List.append_nil]

/-- Tables with the same module under a name have the same text cases and the same entries. -/
theorem content_of_render_eq {m : RustModule} {t u : DecisionTable}
    (ht : ∀ e ∈ t.entries.toList, e.IsNamed) (hu : ∀ e ∈ u.entries.toList, e.IsNamed)
    (h : m.render t = m.render u) :
    t.textCases.toList = u.textCases.toList ∧ t.entries = u.entries := by
  have htext := congrArg String.toList h
  rw [toList_render, toList_render] at htext
  have hconstants := List.append_cancel_left htext
  obtain ⟨hkeys, hhead⟩ :=
    reveals_keyConstant.flatMap_append_inj prefix_keyConstant (by decide) ht hu hconstants
  have htextArms := List.append_cancel_left hhead
  obtain ⟨htextCases, hmatch⟩ := reveals_textArm.flatMap_append_inj prefix_textArm (by decide)
    (fun _ _ => trivial) (fun _ _ => trivial) htextArms
  have hkeyArms := List.append_cancel_left hmatch
  obtain ⟨hcases, -⟩ :=
    reveals_keyArm.flatMap_append_inj prefix_keyArm (by decide) ht hu hkeyArms
  rw [List.map_id, List.map_id] at htextCases
  exact ⟨htextCases, DecisionTable.entries_eq hkeys hcases⟩

end RustModule

end KeyDispatch
