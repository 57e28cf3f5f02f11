/-!
# Hexadecimal numbers

`hexValue` is the value of a run of hexadecimal digits and `readWord` refuses the values that do not
fit in 32 bits. `hexDigits` writes a number in lower case without leading zeros; `hexText` puts the
marker `0x` and, where asked, zeros in front.
-/

namespace KeyDispatch.Text

/-- Digits in either case. -/
def isHexDigit (c : Char) : Bool :=
  c.isDigit || ('a' ≤ c && c ≤ 'f') || ('A' ≤ c && c ≤ 'F')

/-- Digits whose letters are in lower case. -/
def isLowerHexDigit (c : Char) : Bool := c.isDigit || ('a' ≤ c && c ≤ 'f')

/-- Digits whose letters are in upper case. -/
def isUpperHexDigit (c : Char) : Bool := c.isDigit || ('A' ≤ c && c ≤ 'F')

/-- Value of a digit in either case, and zero for any other character. -/
def digitValue (c : Char) : Nat :=
  if c.isDigit then c.toNat - '0'.toNat
  else if 'a' ≤ c && c ≤ 'f' then c.toNat - 'a'.toNat + 10
  else if 'A' ≤ c && c ≤ 'F' then c.toNat - 'A'.toNat + 10
  else 0

/-- Value of a run of digits, the first digit weighing most. -/
def hexValue (digits : List Char) : Nat := digits.foldl (fun n c => 16 * n + digitValue c) 0

/-- The 32-bit word a run of digits stands for, if its value is below the number of words. -/
def readWord (digits : List Char) : Option UInt32 :=
  let n := hexValue digits
  if n < UInt32.size then some (UInt32.ofNat n) else none

/-- The digits of a number in lower case, without leading zeros; zero has one digit. -/
def hexDigits (n : Nat) : List Char := Nat.toDigits 16 n

/-- `digits` behind as many zeros as make `width` characters. -/
def padZeros (width : Nat) (digits : List Char) : List Char :=
  List.replicate (width - digits.length) '0' ++ digits

/-- `0x` and at least `width` digits in lower case. -/
def hexText (width : Nat) (n : Nat) : String :=
  String.ofList ('0' :: 'x' :: padZeros width (hexDigits n))

/-- `U+` and at least four digits in upper case. -/
def positionText (n : Nat) : String :=
  String.ofList ('U' :: '+' :: padZeros 4 ((hexDigits n).map Char.toUpper))

/-- One more digit at the end multiplies the value by sixteen and adds its own. -/
theorem hexValue_append_singleton (ds : List Char) (c : Char) :
    hexValue (ds ++ [c]) = 16 * hexValue ds + digitValue c := by
  simp [hexValue, List.foldl_append]

/-- Digits in lower case are digits. -/
theorem isHexDigit_of_isLowerHexDigit {c : Char} (h : isLowerHexDigit c) : isHexDigit c :=
  Bool.or_eq_true_iff.2 (.inl h)

/-- A character counts for less than sixteen. -/
theorem digitValue_lt (c : Char) : digitValue c < 16 := by
  have upTo : ∀ {last : Char}, c ≤ last → c.toNat ≤ last.toNat := fun h =>
    UInt32.le_iff_toNat_le.1 h
  unfold digitValue
  split
  · rename_i h
    have hle := (Char.isDigit_iff_toNat.1 h).2
    have h9 : '9'.toNat = 57 := rfl
    have h0 : '0'.toNat = 48 := rfl
    omega
  · split
    · rename_i h
      have hle := upTo (of_decide_eq_true (Bool.and_eq_true_iff.1 h).2)
      have hf : 'f'.toNat = 102 := rfl
      have ha : 'a'.toNat = 97 := rfl
      omega
    · split
      · rename_i h
        have hle := upTo (of_decide_eq_true (Bool.and_eq_true_iff.1 h).2)
        have hf : 'F'.toNat = 70 := rfl
        have ha : 'A'.toNat = 65 := rfl
        omega
      · decide

/-- A run of digits reads as a word exactly if its value is that word. -/
theorem readWord_eq_some_iff {digits : List Char} {w : UInt32} :
    readWord digits = some w ↔ hexValue digits = w.toNat := by
  unfold readWord
  constructor
  · intro h
    by_cases hn : hexValue digits < UInt32.size
    · rw [if_pos hn] at h
      rw [← Option.some.inj h, UInt32.toNat_ofNat_of_lt' hn]
    · rw [if_neg hn] at h
      cases h
  · intro h
    have hn : hexValue digits < UInt32.size := h ▸ w.toNat_lt
    rw [if_pos hn, h, UInt32.ofNat_toNat]

/-- A number of 32 bits is that of a word. -/
theorem exists_toNat_eq {n : Nat} (h : n < UInt32.size) : ∃ w : UInt32, w.toNat = n :=
  ⟨UInt32.ofNat n, UInt32.toNat_ofNat_of_lt' h⟩

/-- A run of digits is refused exactly if its value needs more than 32 bits. -/
theorem readWord_eq_none_iff {digits : List Char} :
    readWord digits = none ↔ UInt32.size ≤ hexValue digits := by
  unfold readWord
  by_cases hn : hexValue digits < UInt32.size
  · rw [if_pos hn]
    exact ⟨fun h => (nomatch h), fun h => absurd hn (Nat.not_lt.2 h)⟩
  · rw [if_neg hn]
    exact ⟨fun _ => Nat.not_lt.1 hn, fun _ => rfl⟩

/-- The character of a number below sixteen is a lower case digit. -/
theorem isLowerHexDigit_digitChar {n : Nat} (h : n < 16) : isLowerHexDigit n.digitChar := by
  revert n
  decide

/-- The character of a number below sixteen has that value. -/
theorem digitValue_digitChar {n : Nat} (h : n < 16) : digitValue n.digitChar = n := by
  revert n
  decide

/-- The character of a number below sixteen is a zero for zero only. -/
theorem digitChar_eq_zero_iff {n : Nat} (h : n < 16) : n.digitChar = '0' ↔ n = 0 := by
  revert n
  decide

/-- Every number has digits. -/
theorem hexDigits_ne_nil (n : Nat) : hexDigits n ≠ [] := Nat.toDigits_ne_nil

/-- A number below sixteen has one digit. -/
theorem hexDigits_of_lt {n : Nat} (h : n < 16) : hexDigits n = [n.digitChar] :=
  Nat.toDigits_of_lt_base h

/-- The last digit of a larger number stands for its remainder. -/
theorem hexDigits_of_le {n : Nat} (h : 16 ≤ n) :
    hexDigits n = hexDigits (n / 16) ++ [(n % 16).digitChar] :=
  Nat.toDigits_of_base_le (by decide) h

/-- The digits written for a number are lower case digits. -/
theorem isLowerHexDigit_of_mem_hexDigits {n : Nat} {c : Char} (h : c ∈ hexDigits n) :
    isLowerHexDigit c := by
  induction n using Nat.strongRecOn with
  | ind n ih =>
    by_cases hn : n < 16
    · rw [hexDigits_of_lt hn, List.mem_singleton] at h
      rw [h]
      exact isLowerHexDigit_digitChar hn
    · have hle : 16 ≤ n := Nat.not_lt.1 hn
      rw [hexDigits_of_le hle, List.mem_append, List.mem_singleton] at h
      rcases h with h | rfl
      · exact ih (n / 16) (Nat.div_lt_self (by omega) (by decide)) h
      · exact isLowerHexDigit_digitChar (Nat.mod_lt n (by decide))

/-- Zero alone is written with a zero in front. -/
theorem head?_hexDigits_eq_zero_iff {n : Nat} : (hexDigits n).head? = some '0' ↔ n = 0 := by
  induction n using Nat.strongRecOn with
  | ind n ih =>
    by_cases hn : n < 16
    · rw [hexDigits_of_lt hn, List.head?_cons, Option.some.injEq]
      exact digitChar_eq_zero_iff hn
    · have hle : 16 ≤ n := Nat.not_lt.1 hn
      have hfirst := List.head?_eq_some_head (hexDigits_ne_nil (n / 16))
      rw [hexDigits_of_le hle, List.head?_append, hfirst, Option.some_or, ← hfirst,
        ih (n / 16) (Nat.div_lt_self (by omega) (by decide))]
      omega

/-- The digits written for a number have that value. -/
theorem hexValue_hexDigits (n : Nat) : hexValue (hexDigits n) = n := by
  induction n using Nat.strongRecOn with
  | ind n ih =>
    by_cases hn : n < 16
    · rw [hexDigits_of_lt hn]
      simp [hexValue, digitValue_digitChar hn]
    · have hle : 16 ≤ n := Nat.not_lt.1 hn
      rw [hexDigits_of_le hle, hexValue_append_singleton,
        ih (n / 16) (Nat.div_lt_self (by omega) (by decide)),
        digitValue_digitChar (Nat.mod_lt n (by decide))]
      exact Nat.div_add_mod n 16

/-- Zeros in front do not change the value. -/
theorem hexValue_padZeros (width : Nat) (digits : List Char) :
    hexValue (padZeros width digits) = hexValue digits := by
  unfold padZeros
  induction width - digits.length with
  | zero => rfl
  | succ k ih =>
    rw [List.replicate_succ, List.cons_append]
    exact ih

/-- Padded digits are as many as asked for, or more. -/
theorem length_padZeros (width : Nat) (digits : List Char) :
    (padZeros width digits).length = max width digits.length := by
  rw [padZeros, List.length_append, List.length_replicate]
  omega

/-- Enough digits are not padded. -/
theorem padZeros_of_le {width : Nat} {digits : List Char} (h : width ≤ digits.length) :
    padZeros width digits = digits := by
  rw [padZeros, Nat.sub_eq_zero_of_le h, List.replicate_zero, List.nil_append]

/-- Digits padded with zeros are lower case digits. -/
theorem isLowerHexDigit_of_mem_padZeros {width n : Nat} {c : Char}
    (h : c ∈ padZeros width (hexDigits n)) : isLowerHexDigit c := by
  rcases List.mem_append.1 h with h | h
  · rw [List.eq_of_mem_replicate h]
    decide
  · exact isLowerHexDigit_of_mem_hexDigits h

/-- A word reads as itself from its digits, with any zeros in front. -/
theorem readWord_padZeros_hexDigits (width : Nat) (w : UInt32) :
    readWord (padZeros width (hexDigits w.toNat)) = some w := by
  rw [readWord_eq_some_iff, hexValue_padZeros, hexValue_hexDigits]

end KeyDispatch.Text
