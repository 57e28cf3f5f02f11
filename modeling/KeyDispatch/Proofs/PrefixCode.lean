import KeyDispatch.DecisionTable
import KeyDispatch.Proofs.LineGrammar
import KeyDispatch.Proofs.TokenReader

/-!
# Texts that tell what was written

`write` reveals `view` if, from a text that starts with what `write` makes of something, `view` of
this can be told and where the text behind it begins (`Reveals`). Names and numbers can be told where
the text goes on with another character. Items in a row reveal what each one reveals, if all of them
start alike and what stands behind the last one starts otherwise (`Reveals.flatMap_append_inj`).
-/

namespace KeyDispatch

open Token

/-! ## Words -/

theorem stops_of_breaksWord {x : List Char} (h : breaksWord x) : Stops isWordChar x := by
  cases x with
  | nil => exact stops_nil
  | cons c x => exact stops_cons.2 (by simpa [breaksWord] using h)

/-- A word ends where the text goes on with another character. -/
theorem word_append_inj {v w x y : List Char} (hv : ∀ c ∈ v, isWordChar c)
    (hw : ∀ c ∈ w, isWordChar c) (hx : breaksWord x) (hy : breaksWord y)
    (h : v ++ x = w ++ y) : v = w ∧ x = y := by
  have hword := congrArg (List.takeWhile isWordChar) h
  rw [takeWhile_append_of_stops hv (stops_of_breaksWord hx),
    takeWhile_append_of_stops hw (stops_of_breaksWord hy)] at hword
  subst hword
  exact ⟨rfl, List.append_cancel_left h⟩

theorem name_append_inj {n m : String} (hn : ∀ c ∈ n.toList, Text.isWord c)
    (hm : ∀ c ∈ m.toList, Text.isWord c) {x y : List Char} (hx : breaksWord x) (hy : breaksWord y)
    (h : n.toList ++ x = m.toList ++ y) : n = m ∧ x = y := by
  have hword : ∀ c, Text.isWord c → isWordChar c := fun c hc => Bool.or_eq_true_iff.2 (.inl hc)
  obtain ⟨hname, hrest⟩ := word_append_inj (fun c hc => hword c (hn c hc))
    (fun c hc => hword c (hm c hc)) hx hy h
  exact ⟨String.toList_inj.1 hname, hrest⟩

/-- A number in hexadecimal form is told by its digits. -/
theorem hexText_append_inj {width : Nat} {n m : UInt32} {x y : List Char} (hx : breaksWord x)
    (hy : breaksWord y)
    (h : (Text.hexText width n.toNat).toList ++ x = (Text.hexText width m.toNat).toList ++ y) :
    n = m ∧ x = y := by
  obtain ⟨htext, hrest⟩ := word_append_inj (fun _ => isWordChar_of_mem_hexText)
    (fun _ => isWordChar_of_mem_hexText) hx hy h
  refine ⟨?_, hrest⟩
  have hn := numeral?_hexText width n
  rw [String.toList_inj.1 htext, numeral?_hexText width m] at hn
  exact (Option.some.inj hn).symm

theorem keysym_append_inj {k l : Keysym} {x y : List Char} (hx : breaksWord x) (hy : breaksWord y)
    (h : k.text.toList ++ x = l.text.toList ++ y) : k = l ∧ x = y := by
  obtain ⟨hcode, hrest⟩ := hexText_append_inj hx hy h
  refine ⟨?_, hrest⟩
  cases k
  cases l
  exact congrArg Keysym.mk hcode

theorem prefix_hexText (width n : Nat) : ['0', 'x'] <+: (Text.hexText width n).toList := by
  rw [Text.hexText, String.toList_ofList]
  exact List.prefix_append ['0', 'x'] _

/-- Two keysyms are told if the texts behind them start with no digit. -/
theorem keysyms_append_inj {middle back : List Char} (hmiddle : ∀ x, breaksWord (middle ++ x))
    (hback : ∀ x, breaksWord (back ++ x)) {k l k' l' : Keysym} {x y : List Char}
    (h : k.text.toList ++ (middle ++ (l.text.toList ++ (back ++ x))) =
      k'.text.toList ++ (middle ++ (l'.text.toList ++ (back ++ y)))) :
    k = k' ∧ l = l' ∧ x = y := by
  obtain ⟨hk, hrest⟩ := keysym_append_inj (hmiddle _) (hmiddle _) h
  obtain ⟨hl, hbehind⟩ := keysym_append_inj (hback x) (hback y) (List.append_cancel_left hrest)
  exact ⟨hk, hl, List.append_cancel_left hbehind⟩

/-! ## Resolutions -/

/-- What a resolution is, without its keysyms. -/
inductive Resolution.Shape where
  | fixed
  | shift
  | keypad
  | swapped (platform : Platform)
deriving DecidableEq

/-- What a resolution is. -/
def Resolution.shape : Resolution → Resolution.Shape
  | .fixed _ => .fixed
  | .shift _ _ => .shift
  | .keypad _ _ => .keypad
  | .swapped _ _ platform => .swapped platform

/-- If texts begin by a view of what they are written for, and no beginning begins another one, a text
tells the view. -/
theorem view_eq_of_append {α κ : Type} {view : α → κ} {write : α → List Char}
    {opening : κ → List Char} (hapart : ∀ j k, opening j <+: opening k → j = k)
    (hopening : ∀ a, opening (view a) <+: write a) {a b : α} {x y : List Char}
    (h : write a ++ x = write b ++ y) : view a = view b := by
  have ha : opening (view a) <+: write a ++ x := (hopening a).trans (List.prefix_append _ _)
  have hb : opening (view b) <+: write a ++ x := h ▸ (hopening b).trans (List.prefix_append _ _)
  rcases List.prefix_or_prefix_of_prefix ha hb with hpre | hpre
  · exact hapart _ _ hpre
  · exact (hapart _ _ hpre).symm

/-! ## Items -/

section Items

variable {α β : Type}

/-- Of something valid whose text begins a text, `view` can be told from this text, and what stands
behind it. -/
def Reveals (valid : α → Prop) (write : α → List Char) (view : α → β) : Prop :=
  ∀ ⦃a b⦄, valid a → valid b → ∀ ⦃x y⦄, write a ++ x = write b ++ y → view a = view b ∧ x = y

/-- Items in a row are told one by one, by induction on the first row: where it ends, the other one
ends too, since no item starts like what stands behind the last one. -/
theorem Reveals.flatMap_append_inj {valid : α → Prop} {write : α → List Char} {view : α → β}
    (h : Reveals valid write view) {start stop : List Char} (hstart : ∀ a, start <+: write a)
    (hapart : ¬ start <+: stop ∧ ¬ stop <+: start) {as bs : List α} (has : ∀ a ∈ as, valid a)
    (hbs : ∀ b ∈ bs, valid b) {x y : List Char}
    (heq : as.flatMap write ++ (stop ++ x) = bs.flatMap write ++ (stop ++ y)) :
    as.map view = bs.map view ∧ x = y := by
  have hends : ∀ a (rest behind : List Char), stop ++ behind ≠ write a ++ rest := by
    intro a rest behind he
    have hitem : start <+: stop ++ behind := he ▸ (hstart a).trans (List.prefix_append _ _)
    rcases List.prefix_or_prefix_of_prefix hitem (List.prefix_append stop behind) with hpre | hpre
    · exact hapart.1 hpre
    · exact hapart.2 hpre
  induction as generalizing bs with
  | nil =>
    cases bs with
    | nil => exact ⟨rfl, List.append_cancel_left heq⟩
    | cons b bs =>
      rw [List.flatMap_cons, List.append_assoc] at heq
      exact absurd heq (hends b _ _)
  | cons a as ih =>
    cases bs with
    | nil =>
      rw [List.flatMap_cons, List.append_assoc] at heq
      exact absurd heq.symm (hends a _ _)
    | cons b bs =>
      obtain ⟨ha, has⟩ := List.forall_mem_cons.1 has
      obtain ⟨hb, hbs⟩ := List.forall_mem_cons.1 hbs
      rw [List.flatMap_cons, List.flatMap_cons, List.append_assoc, List.append_assoc] at heq
      obtain ⟨hview, hrest⟩ := h ha hb heq
      obtain ⟨hviews, hbehind⟩ := ih has hbs hrest
      exact ⟨congrArg₂ List.cons hview hviews, hbehind⟩

end Items

/-- Items of a number and a keysym are told if the texts behind these start with no digit. -/
theorem reveals_numbered {front middle back : List Char} (hmiddle : ∀ x, breaksWord (middle ++ x))
    (hback : ∀ x, breaksWord (back ++ x)) :
    Reveals (fun _ => True) (fun p : UInt32 × Keysym =>
      front ++ ((Text.hexText 4 p.1.toNat).toList ++ (middle ++ (p.2.text.toList ++ back)))) id := by
  intro p q _ _ x y h
  simp only [List.append_assoc, List.append_cancel_left_eq] at h
  obtain ⟨hnumber, hrest⟩ := hexText_append_inj (hmiddle _) (hmiddle _) h
  obtain ⟨hkeysym, hbehind⟩ :=
    keysym_append_inj (hback x) (hback y) (List.append_cancel_left hrest)
  exact ⟨Prod.ext hnumber hkeysym, List.append_cancel_left hbehind⟩

theorem toList_textOfLines_flatMap {ι : Type} (items : List ι) (lines : ι → List String) :
    (Artifact.textOfLines (items.flatMap lines)).toList =
      items.flatMap fun i => (Artifact.textOfLines (lines i)).toList := by
  simp only [toList_textOfLines, List.flatMap_assoc]

/-! ## Entries -/

namespace Entry

/-- Name and resolution of an entry. -/
def case (e : Entry) : String × Resolution := (e.name, e.resolution)

/-- The name of an entry consists of word characters. -/
def IsNamed (e : Entry) : Prop := ∀ c ∈ e.name.toList, Text.isWord c

end Entry

end KeyDispatch
