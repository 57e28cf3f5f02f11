import KeyDispatch.Text.Hex

/-!
# Keysyms

A `Keysym` is the code of a key symbol as it goes over the wire. The vendor range holds the codes
reserved for vendor keysyms, and `Keysym.none` is the code that stands for no key symbol at all.
-/

namespace KeyDispatch

/-- The code of a key symbol. -/
structure Keysym where
  code : UInt32
deriving DecidableEq, Inhabited

namespace Keysym

/-- First code of the vendor range. -/
def vendorFirst : UInt32 := 0x10080001

/-- Last code of the vendor range. -/
def vendorLast : UInt32 := 0x1008FFFF

/-- The code that a dispatch answers when it knows no keysym. -/
def none : Keysym := ⟨0⟩

/-- The code lies in the vendor range, ends included. -/
def isVendor (k : Keysym) : Bool := vendorFirst ≤ k.code && k.code ≤ vendorLast

theorem isVendor_iff {k : Keysym} :
    k.isVendor = true ↔ 0x10080001 ≤ k.code.toNat ∧ k.code.toNat ≤ 0x1008FFFF := by
  rw [isVendor, Bool.and_eq_true_iff, decide_eq_true_iff, decide_eq_true_iff,
    UInt32.le_iff_toNat_le, UInt32.le_iff_toNat_le]
  rfl

/-- Written form: `0x` and at least four digits. -/
def text (k : Keysym) : String := Text.hexText 4 k.code.toNat

end Keysym

end KeyDispatch
