import KeyDispatch.Definition
import KeyDispatch.Event
import KeyDispatch.SortedMap

/-!
# Vendor symbols

The vendor header defines keysyms of the vendor range. A name that is defined again takes the later
code, and several names may share a code.
-/

namespace KeyDispatch

/-- Vendor keysyms by name. -/
structure VendorTable where
  symbols : SortedMap String Keysym
deriving DecidableEq, Inhabited

namespace VendorTable

/-- The table without symbols. -/
def empty : VendorTable := ⟨.empty⟩

/-- The start of a line that defines a vendor symbol. -/
def marker : List Char := "#define XF86XK_".toList

/-- The name and keysym that a line of the vendor header defines, if any. -/
def ofLine (l : Numbered (List Char)) : Except HeaderError (Option (String × Keysym)) :=
  match Define.ofLine .vendor marker Text.isHexDigit l with
  | .error e => .error e
  | .ok none => .ok none
  | .ok (some (d, code)) =>
    if Keysym.isVendor ⟨code⟩ then .ok (some (String.ofList d.name, ⟨code⟩))
    else .error (.vendorCodeOutOfRange l.line (String.ofList d.name) code)

section OfLine

variable {l : Numbered (List Char)}

theorem ofLine_eq_ok_some_iff {symbol : String × Keysym} :
    ofLine l = .ok (some symbol) ↔
      ∃ d code, Define.ofLine .vendor marker Text.isHexDigit l = .ok (some (d, code)) ∧
        Keysym.isVendor ⟨code⟩ = true ∧ symbol = (String.ofList d.name, ⟨code⟩) := by
  constructor
  · intro h
    unfold ofLine at h
    split at h
    · cases h
    · cases h
    · next d code hdefine =>
      split at h
      · next hvendor =>
        exact ⟨d, code, hdefine, hvendor, (Option.some.inj (Except.ok.inj h)).symm⟩
      · cases h
  · rintro ⟨d, code, hdefine, hvendor, rfl⟩
    simp only [ofLine, hdefine, hvendor, if_true]

theorem ofLine_eq_ok_none_iff :
    ofLine l = .ok none ↔ Define.ofLine .vendor marker Text.isHexDigit l = .ok none := by
  constructor
  · intro h
    unfold ofLine at h
    split at h
    · cases h
    · next hdefine => exact hdefine
    · split at h <;> cases h
  · intro hdefine
    simp only [ofLine, hdefine]

/-- A line is refused as a definition line, or because its code is no vendor's. -/
theorem ofLine_eq_error_iff {e : HeaderError} :
    ofLine l = .error e ↔
      Define.ofLine .vendor marker Text.isHexDigit l = .error e ∨
      ∃ d code, Define.ofLine .vendor marker Text.isHexDigit l = .ok (some (d, code)) ∧
        ¬ Keysym.isVendor ⟨code⟩ = true ∧
        e = .vendorCodeOutOfRange l.line (String.ofList d.name) code := by
  constructor
  · intro h
    unfold ofLine at h
    split at h
    · next hdefine =>
      obtain rfl := Except.error.inj h
      exact .inl hdefine
    · cases h
    · next d code hdefine =>
      split at h
      · cases h
      · next hvendor => exact .inr ⟨d, code, hdefine, hvendor, (Except.error.inj h).symm⟩
  · rintro (hdefine | ⟨d, code, hdefine, hvendor, rfl⟩)
    · simp only [ofLine, hdefine]
    · simp only [ofLine, hdefine, if_neg hvendor]

end OfLine

/-- The code of a symbol. -/
def code? (t : VendorTable) (name : String) : Option Keysym := t.symbols.get? name

/-- A symbol of the name is defined. -/
def contains (t : VendorTable) (name : String) : Bool := t.symbols.contains name

/-- Number of symbols. -/
def size (t : VendorTable) : Nat := t.symbols.size

/-- No symbol is defined. -/
def isEmpty (t : VendorTable) : Bool := t.symbols.isEmpty

/-- The definitions of a text, up to its first error. -/
def definitions (source : String) : Scan (String × Keysym) := scan ofLine (numberedLines source)

/-- The table of the full text of the vendor header. -/
def ofText (source : String) : Logged HeaderError VendorTable :=
  let found := definitions source
  match found.failure with
  | some e => .fail e
  | none =>
    let t : VendorTable := ⟨.ofList (found.found.map (·.content))⟩
    ⟨[.vendorSummary t.size], .ok t⟩

theorem ofText_outcome_eq_ok_iff_definitions {source : String} {t : VendorTable} :
    (ofText source).outcome = .ok t ↔
      (definitions source).failure = none ∧
        t = ⟨.ofList ((definitions source).found.map (·.content))⟩ := by
  cases hfailure : (definitions source).failure with
  | some e => simp [ofText, hfailure, Logged.fail]
  | none => simp [ofText, hfailure, eq_comm]

end VendorTable

end KeyDispatch
