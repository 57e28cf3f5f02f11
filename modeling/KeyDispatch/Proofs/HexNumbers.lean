import KeyDispatch.Artifact.RustModule
import KeyDispatch.Proofs.SymbolLine

/-!
# Numbers in hexadecimal, read and written

A run of digits of any length denotes one number (`Text.Denotes`), and it is read as the word of
that number or, if the number needs more than 32 bits, refused: on the lines of the headers by the
error that the value does not fit (`ReadsCode`). The same comes of taking the digits into a word one
by one and stopping where the arithmetic of words would wrap around (`Text.foldlM_pushDigit`). What
is written for a word is read as that word, so no two words are written alike, and a keysym as it is
written may stand as a code in the primary header (`hexNumbers_readBack`).
-/

namespace KeyDispatch

namespace Text

/-! ## The number of a run of digits -/

/-- The character is the digit of a number below sixteen, in lower or upper case. -/
def IsDigitOf (c : Char) (n : Nat) : Prop :=
  n < 16 ∧ (c = n.digitChar ∨ c = n.digitChar.toUpper)

/-- The digits denote the number by their places: the last one counts once, and each counts sixteen
times as much as the one behind it. -/
def Denotes (digits : List Char) (n : Nat) : Prop :=
  ∃ weights, List.Forall₂ IsDigitOf digits weights ∧ n = Nat.ofDigits 16 weights.reverse

section Denotes

variable {digits : List Char} {c : Char} {n : Nat}

theorem IsDigitOf.digitValue_eq (h : IsDigitOf c n) : digitValue c = n := by
  have hupper : ∀ n < 16, digitValue n.digitChar.toUpper = n := by decide
  obtain ⟨hn, rfl | rfl⟩ := h
  · exact digitValue_digitChar hn
  · exact hupper n hn

theorem isDigitOf_digitValue (h : isHexDigit c) : IsDigitOf c (digitValue c) := by
  -- a digit is one of the first 128 characters
  have hascii : ∀ n < 128, isHexDigit (Char.ofNat n) = true →
      digitValue (Char.ofNat n) < 16 ∧ (Char.ofNat n = (digitValue (Char.ofNat n)).digitChar ∨
        Char.ofNat n = (digitValue (Char.ofNat n)).digitChar.toUpper) := by
    decide
  have hc := hascii c.toNat (toNat_lt_of_isWord (isWord_of_isHexDigit c h))
  rw [Char.ofNat_toNat] at hc
  exact hc h

theorem hexValue_eq_ofDigits (digits : List Char) :
    hexValue digits = Nat.ofDigits 16 (digits.map digitValue).reverse := by
  rw [hexValue, List.foldl_eq_foldr_reverse, Nat.ofDigits_eq_foldr, ← List.map_reverse,
    List.foldr_map]
  exact congrArg (fun f => List.foldr f 0 digits.reverse)
    (funext fun c => funext fun n => Nat.add_comm _ _)

theorem Denotes.eq_hexValue (h : Denotes digits n) : n = hexValue digits := by
  obtain ⟨weights, hweights, rfl⟩ := h
  have hvalues : digits.map digitValue = weights := by
    rw [← List.forall₂_eq_eq_eq, List.forall₂_map_left_iff]
    exact hweights.imp fun _ _ hc => hc.digitValue_eq
  rw [hexValue_eq_ofDigits, hvalues]

/-- Digits denote their value and no other number. -/
theorem denotes_iff (h : ∀ c ∈ digits, isHexDigit c) : Denotes digits n ↔ n = hexValue digits := by
  constructor
  · exact Denotes.eq_hexValue
  · rintro rfl
    refine ⟨digits.map digitValue, ?_, hexValue_eq_ofDigits digits⟩
    rw [List.forall₂_map_right_iff, List.forall₂_same]
    exact fun c hc => isDigitOf_digitValue (h c hc)

end Denotes

/-! ## Digit by digit in words -/

/-- One more digit behind a word, in the arithmetic of 32 bits; nothing where the product or the sum
would wrap around. -/
def pushDigit (w : UInt32) (c : Char) : Option UInt32 :=
  if w.toNat * 16 < UInt32.size then
    if (w * 16).toNat + digitValue c < UInt32.size then some (w * 16 + UInt32.ofNat (digitValue c))
    else none
  else none

theorem pushDigit_eq_some_iff {w v : UInt32} {c : Char} :
    pushDigit w c = some v ↔ v.toNat = 16 * w.toNat + digitValue c := by
  have hsize : UInt32.size = 2 ^ 32 := rfl
  have hv := v.toNat_lt
  have hc := digitValue_lt c
  have hdigit : (UInt32.ofNat (digitValue c)).toNat = digitValue c :=
    UInt32.toNat_ofNat_of_lt' (by omega)
  unfold pushDigit
  split
  · next hproduct =>
    have hshifted : (w * 16).toNat = w.toNat * 16 := by
      rw [UInt32.toNat_mul]
      exact Nat.mod_eq_of_lt hproduct
    split
    · next hsum =>
      have hpushed : (w * 16 + UInt32.ofNat (digitValue c)).toNat =
          16 * w.toNat + digitValue c := by
        rw [UInt32.toNat_add, hshifted, hdigit, Nat.mod_eq_of_lt (by omega), Nat.mul_comm]
      rw [Option.some.injEq, ← UInt32.toNat_inj, hpushed]
      exact eq_comm
    · next hsum =>
      rw [hshifted] at hsum
      simp only [reduceCtorEq, false_iff]
      omega
  · next hproduct =>
    simp only [reduceCtorEq, false_iff]
    omega

/-- No digit is lost and no carry: digit by digit the word is that of the exact value, and the first
digit that does not fit is one behind which nothing would. -/
theorem foldlM_pushDigit (digits : List Char) : digits.foldlM pushDigit 0 = readWord digits := by
  induction digits using List.reverseRecOn with
  | nil => rfl
  | append_singleton digits c ih =>
    apply Option.ext
    intro v
    rw [List.foldlM_append, ih, readWord_eq_some_iff, hexValue_append_singleton]
    simp only [List.foldlM_cons, List.foldlM_nil, Option.bind_eq_bind, Option.bind_eq_some_iff,
      Option.pure_def, readWord_eq_some_iff, pushDigit_eq_some_iff, Option.some.injEq,
      exists_eq_right]
    constructor
    · rintro ⟨w, hw, hv⟩
      rw [hw, hv]
    · intro hv
      -- what is read before is smaller still
      have hlt := v.toNat_lt
      obtain ⟨w, hw⟩ := exists_toNat_eq (show hexValue digits < 2 ^ 32 by omega)
      exact ⟨w, hw.symm, by rw [hw, hv]⟩

/-- How a run of digits is read: as the word of the one number that it denotes, or not at all if that
number needs more than 32 bits. Words come to the same digit by digit. -/
structure ReadsExactly (digits : List Char) : Prop where
  existsUnique : ∃! n, Denotes digits n
  some_iff : ∀ n, Denotes digits n → ∀ w, readWord digits = some w ↔ w.toNat = n
  none_iff : ∀ n, Denotes digits n → (readWord digits = none ↔ 2 ^ 32 ≤ n)
  foldlM_eq : digits.foldlM pushDigit 0 = readWord digits

theorem readsExactly {digits : List Char} (h : ∀ c ∈ digits, isHexDigit c) :
    ReadsExactly digits where
  existsUnique := ⟨hexValue digits, (denotes_iff h).2 rfl, fun _ hn => hn.eq_hexValue⟩
  some_iff n hn w := by rw [readWord_eq_some_iff, hn.eq_hexValue, eq_comm]
  none_iff n hn := by
    rw [readWord_eq_none_iff, hn.eq_hexValue]
    rfl
  foldlM_eq := foldlM_pushDigit digits

/-! ## The digits of a word -/

/-- Digits as they are written for a word: in lower case, as many as asked for or more, but then
without a zero in front, and read as that word. -/
structure Writes (width : Nat) (w : UInt32) (digits : List Char) : Prop where
  lower : ∀ c ∈ digits, isLowerHexDigit c
  width_le : width ≤ digits.length
  head?_ne : width < digits.length → digits.head? ≠ some '0'
  readWord_eq : readWord digits = some w

theorem writes_padZeros {width : Nat} (hwidth : 0 < width) (w : UInt32) :
    Writes width w (padZeros width (hexDigits w.toNat)) where
  lower _ := isLowerHexDigit_of_mem_padZeros
  width_le := by
    rw [length_padZeros]
    exact le_max_left _ _
  head?_ne hlength := by
    rw [length_padZeros, lt_max_iff, or_iff_right (lt_irrefl width)] at hlength
    rw [padZeros_of_le hlength.le, Ne, head?_hexDigits_eq_zero_iff]
    -- zero has one digit
    intro hzero
    rw [hzero, hexDigits_of_lt (by decide), List.length_singleton] at hlength
    omega
  readWord_eq := readWord_padZeros_hexDigits width w

/-- Where one digit is enough, only the word zero has a zero in front. -/
theorem head?_padZeros_one {w : UInt32} :
    (padZeros 1 (hexDigits w.toNat)).head? = some '0' ↔ w = 0 := by
  have hlength : 1 ≤ (hexDigits w.toNat).length := List.length_pos_iff.2 (hexDigits_ne_nil _)
  rw [padZeros_of_le hlength, head?_hexDigits_eq_zero_iff, ← UInt32.toNat_inj]
  rfl

theorem hexText_injective (width : Nat) :
    Function.Injective fun w : UInt32 => hexText width w.toNat := by
  intro w v h
  obtain ⟨-, h⟩ := List.cons.inj (String.ofList_injective h)
  obtain ⟨-, h⟩ := List.cons.inj h
  have hw := readWord_padZeros_hexDigits width w
  rw [h, readWord_padZeros_hexDigits] at hw
  exact (Option.some.inj hw).symm

end Text

open Text (Denotes isHexDigit isLowerHexDigit isWord isBlank)

/-! ## Codes on lines -/

/-- A line with digits gives what they denote, or the error that this does not fit in 32 bits, with
the number of the line and its text. -/
structure ReadsCode {α : Type} (source : Source) (l : Numbered (List Char)) (digits : List Char)
    (result : Except HeaderError (Option α)) (found : UInt32 → α) : Prop where
  fits : ∀ n, Denotes digits n → n < 2 ^ 32 →
    ∃ w : UInt32, w.toNat = n ∧ result = .ok (some (found w))
  tooLarge : ∀ n, Denotes digits n → 2 ^ 32 ≤ n →
    result = .error (.invalidCode source l.line (String.ofList (Text.trim l.content)))

theorem Define.readsCode_ofLine {source : Source} {marker : List Char} {isDigit : Char → Bool}
    {l : Numbered (List Char)} {d : Define} (hdigit : ∀ c, isDigit c → isHexDigit c)
    (h : d.Written marker isDigit l.content) :
    ReadsCode source l d.digits (ofLine source marker isDigit l) (d, ·) where
  fits n hn hfits := by
    obtain ⟨w, rfl⟩ := Text.exists_toNat_eq hfits
    exact ⟨w, rfl, ofLine_of_written (fun c hc => Text.isWord_of_isHexDigit c (hdigit c hc)) h
      hn.eq_hexValue.symm⟩
  tooLarge n hn hlarge := by
    apply ofLine_of_tooLarge (fun c hc => Text.isWord_of_isHexDigit c (hdigit c hc)) h
    rw [← hn.eq_hexValue]
    exact hlarge

theorem ToolkitTable.readsCode_ofLine {l : Numbered (List Char)} {name digits : List Char}
    (h : Written name digits l.content) :
    ReadsCode .toolkit l digits (ofLine l) (String.ofList name, ·) where
  fits n hn hfits := by
    obtain ⟨w, rfl⟩ := Text.exists_toNat_eq hfits
    refine ⟨w, rfl, ofLine_eq_ok_some_iff.2 ⟨digits, ?_, hn.eq_hexValue.symm⟩⟩
    rw [String.toList_ofList]
    exact h
  tooLarge n hn hlarge := by
    refine ofLine_eq_error_iff.2 ⟨name, digits, h, ?_, rfl⟩
    rw [← hn.eq_hexValue]
    exact hlarge

/-! ## Keysyms as codes -/

section Keysyms

variable {k : Keysym} {name between tail : List Char} {comment : Option (List Char)}

/-- The definition of a name with the digits of a keysym. -/
def Define.ofKeysym (name : List Char) (k : Keysym) (comment : Option (List Char)) : Define :=
  ⟨name, Text.padZeros 4 (Text.hexDigits k.code.toNat), comment⟩

/-- The text of a keysym is the code of such a definition. -/
theorem Define.written_ofKeysym (hname : IsRun isWord name) (hbetween : IsRun isBlank between)
    (htail : readTail? tail = some comment) (marker : List Char) :
    (ofKeysym name k comment).Written marker isLowerHexDigit
      (marker ++ (name ++ (between ++ (k.text.toList ++ tail)))) := by
  obtain ⟨before, after, hbefore, hafter, rfl⟩ := readTail?_eq_some_iff.1 htail
  have hdigits : IsRun isLowerHexDigit (Text.padZeros 4 (Text.hexDigits k.code.toNat)) :=
    ⟨List.append_ne_nil_of_right_ne_nil _ (Text.hexDigits_ne_nil _),
      fun _ => Text.isLowerHexDigit_of_mem_padZeros⟩
  refine ⟨between, before, after, hname, hbetween, hdigits, hbefore, hafter, ?_⟩
  rw [Keysym.text, Text.hexText, String.toList_ofList]
  rfl

theorem PrimarySymbol.exists_ofLine_text (k : Keysym) (n : Nat) (hname : IsRun isWord name)
    (hbetween : IsRun isBlank between) (htail : Define.readTail? tail = some comment) :
    ∃ s, ofLine ⟨n, marker ++ (name ++ (between ++ (k.text.toList ++ tail)))⟩ = .ok (some s) ∧
      s.name = String.ofList name ∧ s.code = k ∧ s.DescribedBy comment := by
  have hvalue : Text.hexValue (Define.ofKeysym name k comment).digits = k.code.toNat :=
    Text.readWord_eq_some_iff.1 (Text.readWord_padZeros_hexDigits 4 k.code)
  have hline : Define.ofLine .keysymdef marker isLowerHexDigit
      ⟨n, marker ++ (name ++ (between ++ (k.text.toList ++ tail)))⟩ =
        .ok (some (Define.ofKeysym name k comment, k.code)) :=
    Define.ofLine_of_written Text.isWord_of_isLowerHexDigit
      (Define.written_ofKeysym hname hbetween htail marker) hvalue
  exact ⟨ofDefine (Define.ofKeysym name k comment) k.code,
    ofLine_eq_ok_some_iff.2 ⟨_, _, hline, rfl⟩, name_ofDefine _ _, code_ofDefine _ _,
    describedBy_ofDefine _ _⟩

end Keysyms

/-! ## Back and forth -/

/-- Digits are read as the number that they denote, on every line of a header, or refused if that
needs more than 32 bits; and keysyms and key codes are written with digits that are read as the
same number again. -/
theorem hexNumbers_readBack :
    (∀ digits, IsRun isHexDigit digits → Text.ReadsExactly digits) ∧
      (∀ source marker isDigit l d, (∀ c, isDigit c → isHexDigit c) →
        Define.Written marker isDigit d l.content →
        ReadsCode source l d.digits (Define.ofLine source marker isDigit l) (d, ·)) ∧
      (∀ l name digits, ToolkitTable.Written name digits l.content →
        ReadsCode .toolkit l digits (ToolkitTable.ofLine l) (String.ofList name, ·)) ∧
      (∀ k : Keysym, ∃ digits, k.text = String.ofList ('0' :: 'x' :: digits) ∧
        Text.Writes 4 k.code digits) ∧
      (∀ e : Entry, ∃ digits, RustModule.keyConstant e =
          "    pub const Key_" ++ e.name ++ ": u32 = " ++ String.ofList ('0' :: 'x' :: digits)
            ++ ";" ∧
        Text.Writes 1 e.toolkitCode digits ∧ (digits.head? = some '0' ↔ e.toolkitCode = 0)) ∧
      Function.Injective Keysym.text ∧
      Function.Injective (fun code : UInt32 => Text.hexText 1 code.toNat) ∧
      ∀ (k : Keysym) n name between tail comment, IsRun isWord name → IsRun isBlank between →
        Define.readTail? tail = some comment →
        ∃ s, PrimarySymbol.ofLine
            ⟨n, PrimarySymbol.marker ++ (name ++ (between ++ (k.text.toList ++ tail)))⟩ =
              .ok (some s) ∧
          s.name = String.ofList name ∧ s.code = k ∧ s.DescribedBy comment := by
  refine ⟨fun _ h => Text.readsExactly h.all, fun _ _ _ _ _ => Define.readsCode_ofLine,
    fun _ _ _ => ToolkitTable.readsCode_ofLine, ?_, ?_, ?_, Text.hexText_injective 1,
    fun k n _ _ _ _ => PrimarySymbol.exists_ofLine_text k n⟩
  · intro k
    exact ⟨_, rfl, Text.writes_padZeros (by decide) k.code⟩
  · intro e
    exact ⟨_, rfl, Text.writes_padZeros (by decide) e.toolkitCode, Text.head?_padZeros_one⟩
  · intro k k' h
    have hcode : k.code = k'.code := Text.hexText_injective 4 h
    cases k
    cases k'
    cases hcode
    rfl

/-- Zeros in front of the largest word do not count, one more than it is refused on the lines of
either kind, and the text of a keysym is a code. -/
theorem hexNumbers_readBack_largestWord :
    IsRun isHexDigit "00FFffFFff".toList ∧
      Text.readWord "00FFffFFff".toList = some 0xFFFFFFFF ∧
      Define.Written PrimarySymbol.marker isLowerHexDigit ⟨['a'], "100000000".toList, none⟩
        "#define XK_a 0x100000000".toList ∧
      Define.ofLine .keysymdef PrimarySymbol.marker isLowerHexDigit
        ⟨7, "#define XK_a 0x100000000".toList⟩ =
          .error (.invalidCode .keysymdef 7 "#define XK_a 0x100000000") ∧
      ToolkitTable.Written ['A'] "100000000".toList "Key_A=0x100000000".toList ∧
      ToolkitTable.ofLine ⟨7, "Key_A=0x100000000".toList⟩ =
        .error (.invalidCode .toolkit 7 "Key_A=0x100000000") ∧
      IsRun isWord "Return".toList ∧ IsRun isBlank ['\t'] ∧
      Define.readTail? " /*U+000D*/".toList = some (some "U+000D".toList) ∧
      ∃ s, PrimarySymbol.ofLine ⟨7, PrimarySymbol.marker ++ ("Return".toList ++
          (['\t'] ++ ((Keysym.mk 0xFF0D).text.toList ++ " /*U+000D*/".toList)))⟩ = .ok (some s) ∧
        s.name = String.ofList "Return".toList ∧ s.code = ⟨0xFF0D⟩ ∧
        s.DescribedBy (some "U+000D".toList) := by
  obtain ⟨hreads, hdefine, htoolkit, -, -, -, -, haccepted⟩ := hexNumbers_readBack
  have hlargest : IsRun isHexDigit "00FFffFFff".toList :=
    ⟨by decide, List.all_eq_true.1 (by decide)⟩
  have htooLarge : Denotes "100000000".toList (2 ^ 32) :=
    (Text.denotes_iff (List.all_eq_true.1 (by decide))).2 (by decide)
  have hline : Define.Written PrimarySymbol.marker isLowerHexDigit
      ⟨['a'], "100000000".toList, none⟩ "#define XK_a 0x100000000".toList :=
    (Define.read?_eq_some_iff Text.isWord_of_isLowerHexDigit).1 (by decide)
  have henumerator : ToolkitTable.Written ['A'] "100000000".toList "Key_A=0x100000000".toList :=
    ToolkitTable.read?_eq_some_iff.1 (by decide)
  have hname : IsRun isWord "Return".toList := ⟨by decide, List.all_eq_true.1 (by decide)⟩
  have hblank : IsRun isBlank ['\t'] := ⟨by decide, List.all_eq_true.1 (by decide)⟩
  refine ⟨hlargest, ?_, hline, ?_, henumerator, ?_, hname, hblank, by decide,
    haccepted _ _ _ _ _ _ hname hblank (by decide)⟩
  · refine ((hreads _ hlargest).some_iff _ ?_ _).2 rfl
    exact (Text.denotes_iff hlargest.all).2 (by decide)
  · exact (hdefine _ _ _ ⟨7, _⟩ _ (fun _ => Text.isHexDigit_of_isLowerHexDigit) hline).tooLarge _
      htooLarge le_rfl
  · exact (htoolkit ⟨7, _⟩ _ _ henumerator).tooLarge _ htooLarge le_rfl

end KeyDispatch
