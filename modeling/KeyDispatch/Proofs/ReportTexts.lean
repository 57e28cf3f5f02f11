import KeyDispatch.Event
import KeyDispatch.Proofs.PrefixCode

/-!
# What the texts of reports tell

A trace names a key and shows its resolution in the form of `Resolution.describe`. The form begins
with a letter for the kind of the resolution and shows each keysym by its number in decimal, so a
resolution can be told from it, and where the text behind it begins (`describe_append_inj`). Hence
the trace of a key says all of its resolution (`Event.text_resolved_inj`). A diagnostic on keys with
names of word characters is told from its wording (`Diagnostic.message_inj`).
-/

namespace KeyDispatch

open Token

/-- A number is told from its decimal digits where no word goes on. -/
theorem decimal_append_inj {n m : Nat} {x y : List Char} (hx : breaksWord x) (hy : breaksWord y)
    (h : (toString n).toList ++ x = (toString m).toList ++ y) : n = m ∧ x = y := by
  have hword : ∀ k : Nat, ∀ c ∈ Nat.toDigits 10 k, isWordChar c := by
    intro k c hc
    have hdigit := Nat.isDigit_of_mem_toDigits (by decide) (by decide) hc
    exact isWordChar_of_isLowerHexDigit (Bool.or_eq_true_iff.2 (.inl hdigit))
  simp only [Nat.toString_eq_repr, Nat.toList_repr] at h
  obtain ⟨hdigits, hrest⟩ := word_append_inj (hword n) (hword m) hx hy h
  refine ⟨?_, hrest⟩
  calc
    n = Nat.ofDigitChars 10 (Nat.toDigits 10 n) 0 := Nat.ofDigitChars_ten_toDigits.symm
    _ = Nat.ofDigitChars 10 (Nat.toDigits 10 m) 0 := by rw [hdigits]
    _ = m := Nat.ofDigitChars_ten_toDigits

/-- A platform is told from its name where no word goes on. -/
theorem Platform.name_append_inj {p q : Platform} {x y : List Char} (hx : breaksWord x)
    (hy : breaksWord y) (h : p.name.toList ++ x = q.name.toList ++ y) : p = q ∧ x = y := by
  have hword : ∀ p : Platform, ∀ c ∈ p.name.toList, Text.isWord c := by
    intro p
    cases p <;> exact List.all_eq_true.1 (by decide)
  obtain ⟨hname, hrest⟩ := KeyDispatch.name_append_inj (hword p) (hword q) hx hy h
  refine ⟨?_, hrest⟩
  cases p <;> cases q <;> first | rfl | exact absurd hname (by decide)

/-! ## Resolutions -/

namespace Resolution

/-- A keysym is told from its form. -/
theorem describeKeysym_append_inj {k l : Keysym} {x y : List Char}
    (h : (describeKeysym k).toList ++ x = (describeKeysym l).toList ++ y) : k = l ∧ x = y := by
  unfold describeKeysym at h
  simp only [-String.reduceToList, String.toList_append, List.append_assoc,
    List.append_cancel_left_eq] at h
  obtain ⟨hcode, hrest⟩ := decimal_append_inj (by rfl) (by rfl) h
  refine ⟨?_, List.append_cancel_left hrest⟩
  cases k
  cases l
  exact congrArg Keysym.mk (UInt32.toNat_inj.1 hcode)

/-- Two keysyms are told with the texts around them. -/
theorem describeKeysyms_append_inj {front middle back : List Char} {k l k' l' : Keysym}
    {x y : List Char}
    (h : front ++ ((describeKeysym k).toList ++
        (middle ++ ((describeKeysym l).toList ++ (back ++ x)))) =
      front ++ ((describeKeysym k').toList ++
        (middle ++ ((describeKeysym l').toList ++ (back ++ y))))) :
    k = k' ∧ l = l' ∧ x = y := by
  obtain ⟨hk, hrest⟩ := describeKeysym_append_inj (List.append_cancel_left h)
  obtain ⟨hl, hbehind⟩ := describeKeysym_append_inj (List.append_cancel_left hrest)
  exact ⟨hk, hl, List.append_cancel_left hbehind⟩

/-- The letter that the form of a resolution begins with. -/
def initial : Resolution → Char
  | .fixed _ => 'F'
  | .shift _ _ => 'S'
  | .keypad _ _ => 'K'
  | .swapped _ _ _ => 'P'

theorem initial_prefix_describe (r : Resolution) : [r.initial] <+: r.describe.toList := by
  have hopening : ∀ {c : Char} {opening : String}, [c] <+: opening.toList → ∀ rest : List Char,
      [c] <+: opening.toList ++ rest := fun h rest => h.trans (List.prefix_append _ rest)
  cases r <;> unfold describe initial <;>
    simp only [-String.reduceToList, String.toList_append, List.append_assoc]
  · exact hopening (by decide) _
  · exact hopening (by decide) _
  · exact hopening (by decide) _
  · exact hopening (by decide) _

theorem initial_eq_of_append {r s : Resolution} {x y : List Char}
    (h : r.describe.toList ++ x = s.describe.toList ++ y) : r.initial = s.initial := by
  have hapart : ∀ j k : Char, [j] <+: [k] → j = k := fun j k h => (List.cons_prefix_cons.1 h).1
  have hsame : ∀ {r s : Resolution} {x y : List Char},
      r.describe.toList ++ x = s.describe.toList ++ y → r.initial = s.initial :=
    view_eq_of_append hapart initial_prefix_describe
  exact hsame h

/-- A resolution is told from its form, whatever stands behind, by induction on the resolution. -/
theorem describe_append_inj {r s : Resolution} {x y : List Char}
    (h : r.describe.toList ++ x = s.describe.toList ++ y) : r = s ∧ x = y := by
  have hinitial := initial_eq_of_append h
  induction r generalizing s x y with
  | fixed keysym =>
    cases s with
    | fixed keysym' =>
      unfold describe at h
      simp only [-String.reduceToList, String.toList_append, List.append_assoc,
        List.append_cancel_left_eq] at h
      obtain ⟨rfl, hrest⟩ := describeKeysym_append_inj h
      exact ⟨rfl, List.append_cancel_left hrest⟩
    | _ => simp [initial] at hinitial
  | shift lower upper =>
    cases s with
    | shift lower' upper' =>
      unfold describe at h
      simp only [-String.reduceToList, String.toList_append, List.append_assoc] at h
      obtain ⟨rfl, rfl, hrest⟩ := describeKeysyms_append_inj h
      exact ⟨rfl, hrest⟩
    | _ => simp [initial] at hinitial
  | keypad plain onKeypad =>
    cases s with
    | keypad plain' onKeypad' =>
      unfold describe at h
      simp only [-String.reduceToList, String.toList_append, List.append_assoc] at h
      obtain ⟨rfl, rfl, hrest⟩ := describeKeysyms_append_inj h
      exact ⟨rfl, hrest⟩
    | _ => simp [initial] at hinitial
  | swapped normal exchanged platform ihNormal ihExchanged =>
    cases s with
    | swapped normal' exchanged' platform' =>
      unfold describe at h
      simp only [-String.reduceToList, String.toList_append, List.append_assoc,
        List.append_cancel_left_eq] at h
      obtain ⟨hnormal, hrest⟩ := ihNormal h (initial_eq_of_append h)
      have hinner := List.append_cancel_left hrest
      obtain ⟨hexchanged, hrest⟩ := ihExchanged hinner (initial_eq_of_append hinner)
      have hlast := List.append_cancel_left hrest
      obtain ⟨hplatform, hrest⟩ := Platform.name_append_inj (by rfl) (by rfl) hlast
      exact ⟨by rw [hnormal, hexchanged, hplatform], List.append_cancel_left hrest⟩
    | _ => simp [initial] at hinitial

/-- The form of a resolution in the log tells the resolution. -/
theorem describe_injective : Function.Injective describe := by
  intro r s h
  exact (describe_append_inj (x := []) (y := []) (congrArg (·.toList ++ []) h)).1

example : (swapped (.fixed ⟨0xffe3⟩) (.shift ⟨0x61⟩ ⟨0x41⟩) .macOS).describe =
    "PlatformSwapped \x7b normal: Fixed(Keysym(65507)), swapped: Shift \x7b lower: Keysym(97), " ++
      "upper: Keysym(65) \x7d, platform: MacOs \x7d" := by
  rfl

end Resolution

/-- The trace of a key tells the resolution of the key. -/
theorem Event.text_resolved_inj {key : String} {r s : Resolution}
    (h : (Event.resolved key r).text = (Event.resolved key s).text) : r = s := by
  unfold text at h
  rw [String.append_right_inj] at h
  exact Resolution.describe_injective h

/-! ## Diagnostics -/

namespace Diagnostic

/-- What a diagnostic says of its key, without the keys. -/
inductive Kind where
  | caseMismatch
  | noMatch
  | swapPartnerUnresolved
deriving DecidableEq

/-- What the diagnostic says of its key. -/
def kind : Diagnostic → Kind
  | .caseMismatch _ => .caseMismatch
  | .noMatch _ => .noMatch
  | .swapPartnerUnresolved _ _ => .swapPartnerUnresolved

/-- The word of the message behind `Qt key`. -/
def secondWord : Diagnostic → String
  | .swapPartnerUnresolved key _ => key
  | _ => "not"

/-- The rest of the message. -/
def remark : Diagnostic → String
  | .caseMismatch key =>
    " found in keysymdef.h, but lowercase name found in non-unique list: " ++ key
  | .noMatch key => " found in keysymdef.h: " ++ key
  | .swapPartnerUnresolved _ partner =>
    " is not swapped: its partner " ++ partner ++ " has no mapping"

theorem message_eq (d : Diagnostic) : d.message = "Qt key " ++ (d.secondWord ++ d.remark) := by
  unfold message secondWord remark
  cases d with
  | caseMismatch key =>
    dsimp only
    rw [← String.append_assoc, ← String.append_assoc]
    rfl
  | noMatch key =>
    dsimp only
    rw [← String.append_assoc, ← String.append_assoc]
    rfl
  | swapPartnerUnresolved key partner => simp only [String.append_assoc]

/-- How the rest of the message begins. -/
def Kind.opening : Kind → List Char
  | .caseMismatch => " found in keysymdef.h,".toList
  | .noMatch => " found in keysymdef.h:".toList
  | .swapPartnerUnresolved => " is".toList

theorem Kind.opening_apart (j k : Kind) (h : j.opening <+: k.opening) : j = k := by
  cases j <;> cases k <;> first | rfl | exact absurd h (by decide)

theorem opening_prefix_remark (d : Diagnostic) : d.kind.opening <+: d.remark.toList := by
  cases d <;> unfold remark kind <;>
    simp only [-String.reduceToList, String.toList_append, List.append_assoc]
  · exact List.IsPrefix.trans (by decide) (List.prefix_append _ _)
  · exact List.IsPrefix.trans (by decide) (List.prefix_append _ _)
  · exact List.IsPrefix.trans (by decide) (List.prefix_append _ _)

theorem breaksWord_remark (d : Diagnostic) : breaksWord d.remark.toList := by
  obtain ⟨rest, hrest⟩ := d.opening_prefix_remark
  rw [← hrest]
  cases d <;> rfl

theorem kind_eq_of_remark {d e : Diagnostic} (h : d.remark = e.remark) : d.kind = e.kind := by
  have hsame : ∀ {d e : Diagnostic} {x y : List Char},
      d.remark.toList ++ x = e.remark.toList ++ y → d.kind = e.kind :=
    view_eq_of_append Kind.opening_apart opening_prefix_remark
  exact hsame (x := []) (y := []) (by rw [h])

/-- A diagnostic is told from its wording, if the name of its key consists of word characters. -/
theorem message_inj {d e : Diagnostic} (hd : ∀ c ∈ d.key.toList, Text.isWord c)
    (he : ∀ c ∈ e.key.toList, Text.isWord c) (h : d.message = e.message) : d = e := by
  have hword : ∀ d : Diagnostic, (∀ c ∈ d.key.toList, Text.isWord c) →
      ∀ c ∈ d.secondWord.toList, Text.isWord c := by
    have hnot : ∀ c ∈ "not".toList, Text.isWord c := List.all_eq_true.1 (by decide)
    intro d hd
    cases d with
    | caseMismatch key => exact hnot
    | noMatch key => exact hnot
    | swapPartnerUnresolved key partner => exact hd
  rw [message_eq, message_eq, String.append_right_inj] at h
  have htexts := congrArg String.toList h
  rw [String.toList_append, String.toList_append] at htexts
  obtain ⟨hsecond, hrest⟩ :=
    name_append_inj (hword d hd) (hword e he) d.breaksWord_remark e.breaksWord_remark htexts
  have hremark := String.toList_inj.1 hrest
  have hkind := kind_eq_of_remark hremark
  cases d with
  | caseMismatch key =>
    cases e with
    | caseMismatch key' => exact congrArg caseMismatch ((String.append_right_inj _).1 hremark)
    | _ => cases hkind
  | noMatch key =>
    cases e with
    | noMatch key' => exact congrArg noMatch ((String.append_right_inj _).1 hremark)
    | _ => cases hkind
  | swapPartnerUnresolved key partner =>
    cases e with
    | swapPartnerUnresolved key' partner' =>
      have hpartner := (String.append_right_inj _).1 ((String.append_left_inj _).1 hremark)
      exact congrArg₂ swapPartnerUnresolved hsecond hpartner
    | _ => cases hkind

end Diagnostic

end KeyDispatch
