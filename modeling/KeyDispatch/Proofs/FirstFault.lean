import KeyDispatch.Primary
import KeyDispatch.Proofs.LineGrammar
import KeyDispatch.Vendor

/-!
# The first faulty line

A line of a header is faulty or not by itself: nothing that stands before it is asked
(`JudgesAlone`). Reading stops at the first faulty line with the error of this line and its number.
So for each of the three headers what follows that line does not matter, and faultless lines in front
of a text only move the number (`ReportsFirst`).
-/

namespace KeyDispatch

/-- The error with a number of lines put in front. -/
def HeaderError.moved (k : Nat) : HeaderError → HeaderError
  | malformedDefinition source line text => .malformedDefinition source (line + k) text
  | invalidCode source line text => .invalidCode source (line + k) text
  | vendorCodeOutOfRange line name code => .vendorCodeOutOfRange (line + k) name code

/-! ## Lines of two texts -/

namespace Text

/-- The text is empty or ends with a line feed. -/
def EndsLine (cs : List Char) : Prop := ∀ c ∈ cs.getLast?, c = '\n'

theorem linesFrom_append_newline (acc cs rest : List Char) :
    linesFrom acc (cs ++ '\n' :: rest) = linesFrom acc (cs ++ ['\n']) ++ linesFrom [] rest := by
  induction cs generalizing acc with
  | nil => simp [linesFrom]
  | cons c cs ih =>
    rw [List.cons_append, List.cons_append, linesFrom, linesFrom]
    split
    -- a line ends here, or the first one goes on
    · rw [ih, List.cons_append]
    · exact ih _

/-- A text behind a line feed starts a line. -/
theorem lines_append {front : List Char} (h : EndsLine front) (text : List Char) :
    lines (front ++ text) = lines front ++ lines text := by
  obtain rfl | ⟨cs, c, rfl⟩ := List.eq_nil_or_concat' front
  · rfl
  · obtain rfl : c = '\n' := h c (by simp)
    rw [List.append_assoc, List.singleton_append]
    exact linesFrom_append_newline [] cs text

end Text

/-! ## Scans -/

/-- What can be wrong with a line, given by the error that it makes at each number. -/
abbrev Fault := Nat → HeaderError

section Scan

variable {α : Type} {read : Numbered (List Char) → Except HeaderError (Option α)}
  {IsFault : List Char → Fault → Prop}

/-- A line is an error exactly if something is wrong with it, wherever it stands. -/
structure JudgesAlone (read : Numbered (List Char) → Except HeaderError (Option α))
    (IsFault : List Char → Fault → Prop) : Prop where
  error_iff : ∀ line n e, read ⟨n, line⟩ = .error e ↔ ∃ fault, IsFault line fault ∧ e = fault n
  moved : ∀ line fault, IsFault line fault → ∀ n k, fault (n + k) = (fault n).moved k

/-- The first faulty line among some. -/
def FirstFault (IsFault : List Char → Fault → Prop) (n : Nat) (ls : List (List Char))
    (e : HeaderError) : Prop :=
  ∃ before line after fault, ls = before ++ line :: after ∧
    (∀ l ∈ before, ∀ f, ¬ IsFault l f) ∧ IsFault line fault ∧ e = fault (n + before.length)

theorem not_firstFault_nil {n : Nat} {e : HeaderError} : ¬ FirstFault IsFault n [] e := by
  rintro ⟨before, line, after, -, hls, -⟩
  exact absurd hls.symm (by simp)

/-- A line that is faulty decides, and otherwise the lines behind it. -/
theorem firstFault_cons_iff {n : Nat} {line : List Char} {ls : List (List Char)} {e : HeaderError} :
    FirstFault IsFault n (line :: ls) e ↔ (∃ fault, IsFault line fault ∧ e = fault n) ∨
      (∀ f, ¬ IsFault line f) ∧ FirstFault IsFault (n + 1) ls e := by
  constructor
  · rintro ⟨before, line', after, fault, hls, hbefore, hfault, rfl⟩
    cases before with
    | nil =>
      obtain ⟨rfl, rfl⟩ := List.cons.inj hls
      exact .inl ⟨fault, hfault, rfl⟩
    | cons l before =>
      obtain ⟨rfl, rfl⟩ := List.cons.inj hls
      obtain ⟨hline, hbefore⟩ := List.forall_mem_cons.1 hbefore
      refine .inr ⟨hline, before, line', after, fault, rfl, hbefore, hfault, ?_⟩
      rw [List.length_cons, Nat.add_assoc, Nat.add_comm 1]
  · rintro (⟨fault, hfault, rfl⟩ | ⟨hline, before, line', after, fault, rfl, hbefore, hfault, rfl⟩)
    · exact ⟨[], line, ls, fault, rfl, nofun, hfault, rfl⟩
    · refine ⟨line :: before, line', after, fault, rfl,
        List.forall_mem_cons.2 ⟨hline, hbefore⟩, hfault, ?_⟩
      rw [List.length_cons, Nat.add_assoc, Nat.add_comm 1]

/-- If any line is faulty, one is the first, by induction on the lines. -/
theorem exists_firstFault_iff {n : Nat} {ls : List (List Char)} :
    (∃ e, FirstFault IsFault n ls e) ↔ ∃ line ∈ ls, ∃ fault, IsFault line fault := by
  induction ls generalizing n with
  | nil => exact iff_of_false (fun ⟨_, h⟩ => not_firstFault_nil h) nofun
  | cons line ls ih =>
    simp only [firstFault_cons_iff, List.exists_mem_cons_iff, ← @ih (n + 1)]
    constructor
    · rintro ⟨e, ⟨fault, hfault, -⟩ | ⟨-, hrest⟩⟩
      · exact .inl ⟨fault, hfault⟩
      · exact .inr ⟨e, hrest⟩
    · intro h
      by_cases hline : ∃ fault, IsFault line fault
      · obtain ⟨fault, hfault⟩ := hline
        exact ⟨fault n, .inl ⟨fault, hfault, rfl⟩⟩
      · obtain ⟨e, hrest⟩ := h.resolve_left hline
        exact ⟨e, .inr ⟨fun f hf => hline ⟨f, hf⟩, hrest⟩⟩

/-- A scan fails with the first faulty line, by induction on the lines. -/
theorem JudgesAlone.failure_eq_some_iff (h : JudgesAlone read IsFault) {n : Nat}
    {ls : List (List Char)} {e : HeaderError} :
    (scan read (numberFrom n ls)).failure = some e ↔ FirstFault IsFault n ls e := by
  induction ls generalizing n with
  | nil =>
    refine iff_of_false ?_ not_firstFault_nil
    intro hnone
    cases hnone
  | cons line ls ih =>
    rw [firstFault_cons_iff, ← ih, numberFrom, scan]
    cases hread : read ⟨n, line⟩ with
    | error e' =>
      -- the scan stops, whatever the other lines are
      obtain ⟨fault, hfault, he'⟩ := (h.error_iff line n e').1 hread
      have hline : ¬ ∀ f, ¬ IsFault line f := fun hnone => hnone fault hfault
      rw [← h.error_iff, hread, or_iff_left (fun hr => hline hr.1), Option.some.injEq,
        Except.error.injEq]
    | ok found =>
      have hline : ∀ f, ¬ IsFault line f := by
        intro f hf
        have herror := (h.error_iff line n (f n)).2 ⟨f, hf, rfl⟩
        rw [hread] at herror
        cases herror
      have hnone : ¬ ∃ fault, IsFault line fault ∧ e = fault n := by
        rintro ⟨f, hf, -⟩
        exact hline f hf
      rw [or_iff_right hnone]
      cases found with
      | none => exact (and_iff_right hline).symm
      | some a => exact (and_iff_right hline).symm

theorem FirstFault.append {n : Nat} {front ls : List (List Char)} {e : HeaderError}
    (h : FirstFault IsFault n front e) : FirstFault IsFault n (front ++ ls) e := by
  obtain ⟨before, line, after, fault, rfl, hbefore, hfault, rfl⟩ := h
  exact ⟨before, line, after ++ ls, fault, by simp, hbefore, hfault, rfl⟩

/-- Faultless lines in front are passed over, by induction on them. -/
theorem firstFault_append_iff {n : Nat} {front ls : List (List Char)} {e : HeaderError}
    (hfront : ∀ l ∈ front, ∀ f, ¬ IsFault l f) :
    FirstFault IsFault n (front ++ ls) e ↔ FirstFault IsFault (n + front.length) ls e := by
  induction front generalizing n with
  | nil => rfl
  | cons l front ih =>
    obtain ⟨hl, hfront⟩ := List.forall_mem_cons.1 hfront
    have hnone : ¬ ∃ fault, IsFault l fault ∧ e = fault n := fun ⟨f, hf, _⟩ => hl f hf
    rw [List.cons_append, firstFault_cons_iff, or_iff_right hnone, and_iff_right hl, ih hfront,
      List.length_cons, Nat.add_assoc, Nat.add_comm 1]

/-- The same lines with higher numbers make the same error with a higher number. -/
theorem JudgesAlone.firstFault_add_iff (h : JudgesAlone read IsFault) {n k : Nat}
    {ls : List (List Char)} {e : HeaderError} :
    FirstFault IsFault (n + k) ls e ↔ ∃ e', FirstFault IsFault n ls e' ∧ e = e'.moved k := by
  have hadd : ∀ length, n + k + length = n + length + k := fun length => by omega
  constructor
  · rintro ⟨before, line, after, fault, hls, hbefore, hfault, rfl⟩
    refine ⟨fault (n + before.length), ⟨before, line, after, fault, hls, hbefore, hfault, rfl⟩, ?_⟩
    rw [hadd, h.moved line fault hfault]
  · rintro ⟨_, ⟨before, line, after, fault, hls, hbefore, hfault, rfl⟩, rfl⟩
    refine ⟨before, line, after, fault, hls, hbefore, hfault, ?_⟩
    rw [hadd]
    exact (h.moved line fault hfault _ _).symm

end Scan

/-! ## Texts -/

/-- Texts are read up to the first faulty line. A text fails exactly if it has one, with the error of
the first one and its number counted from one. What follows the line does not matter, and lines that
can be read move the number by as many as they are and change nothing else. -/
structure ReportsFirst {τ : Type} (parse : String → Except HeaderError τ)
    (IsFault : List Char → Fault → Prop) : Prop where
  fails_iff : ∀ text, (∃ e, parse text = .error e) ↔
    ∃ line ∈ Text.lines text.toList, ∃ fault, IsFault line fault
  error_iff : ∀ text e, parse text = .error e ↔
    ∃ before line after fault, Text.lines text.toList = before ++ line :: after ∧
      (∀ l ∈ before, ∀ f, ¬ IsFault l f) ∧ IsFault line fault ∧ e = fault (before.length + 1)
  followed : ∀ front text e, Text.EndsLine front.toList → parse front = .error e →
    parse (front ++ text) = .error e
  preceded : ∀ front text e, Text.EndsLine front.toList → (∃ t, parse front = .ok t) →
    (parse (front ++ text) = .error e ↔
      ∃ e', parse text = .error e' ∧ e = e'.moved (Text.lines front.toList).length)

section Texts

variable {α τ : Type} {read : Numbered (List Char) → Except HeaderError (Option α)}
  {IsFault : List Char → Fault → Prop} {parse : String → Except HeaderError τ}

/-- A text that fails if its scan does reports the first faulty line. -/
theorem JudgesAlone.reportsFirst (h : JudgesAlone read IsFault)
    (hparse : ∀ text e, parse text = .error e ↔
      (scan read (numberedLines text)).failure = some e) : ReportsFirst parse IsFault := by
  have herror : ∀ text e, parse text = .error e ↔
      FirstFault IsFault 1 (Text.lines text.toList) e := by
    intro text e
    rw [hparse, numberedLines, h.failure_eq_some_iff]
  have hfails : ∀ text, (∃ e, parse text = .error e) ↔
      ∃ line ∈ Text.lines text.toList, ∃ fault, IsFault line fault := by
    intro text
    simp only [herror, exists_firstFault_iff]
  refine ⟨hfails, ?_, ?_, ?_⟩
  · intro text e
    simp only [herror, FirstFault, Nat.add_comm 1]
  · intro front text e hends hfront
    rw [herror, String.toList_append, Text.lines_append hends]
    exact ((herror front e).1 hfront).append
  · rintro front text e hends ⟨t, ht⟩
    have hfaultless : ∀ l ∈ Text.lines front.toList, ∀ f, ¬ IsFault l f := by
      intro l hl f hf
      obtain ⟨e, he⟩ := (hfails front).2 ⟨l, hl, f, hf⟩
      rw [ht] at he
      cases he
    simp only [herror, String.toList_append]
    rw [Text.lines_append hends, firstFault_append_iff hfaultless, h.firstFault_add_iff]

end Texts

/-! ## The three headers -/

/-- What is wrong with a line as a definition line: it has the marker and is none, or its value does
not fit. -/
inductive Define.IsFault (source : Source) (marker : List Char) (isDigit : Char → Bool)
    (line : List Char) : Fault → Prop where
  | malformed (hmarker : marker <+: line) (h : ∀ d : Define, ¬ d.Written marker isDigit line) :
      IsFault source marker isDigit line fun n =>
        .malformedDefinition source n (String.ofList (Text.trim line))
  | tooLarge (d : Define) (h : d.Written marker isDigit line)
      (hlarge : 2 ^ 32 ≤ Text.hexValue d.digits) :
      IsFault source marker isDigit line fun n =>
        .invalidCode source n (String.ofList (Text.trim line))

/-- What is wrong with a line of the primary header. -/
def PrimaryTable.IsFault : List Char → Fault → Prop :=
  Define.IsFault .keysymdef PrimarySymbol.marker Text.isLowerHexDigit

/-- What is wrong with a line of the vendor header: it is no definition line, or its value is outside
the vendor range. -/
inductive VendorTable.IsFault (line : List Char) : Fault → Prop where
  | define (fault : Fault) (h : Define.IsFault .vendor marker Text.isHexDigit line fault) :
      IsFault line fault
  | outOfRange (d : Define) (code : UInt32) (h : d.Written marker Text.isHexDigit line)
      (hcode : Text.hexValue d.digits = code.toNat)
      (hrange : ¬ (0x10080001 ≤ Text.hexValue d.digits ∧ Text.hexValue d.digits ≤ 0x1008FFFF)) :
      IsFault line fun n => .vendorCodeOutOfRange n (String.ofList d.name) code

/-- What is wrong with a line of the toolkit's header: it is an enumerator whose value does not fit.
-/
inductive ToolkitTable.IsFault (line : List Char) : Fault → Prop where
  | tooLarge (name digits : List Char) (h : Written name digits line)
      (hlarge : 2 ^ 32 ≤ Text.hexValue digits) :
      IsFault line fun n => .invalidCode .toolkit n (String.ofList (Text.trim line))

section Judges

theorem Define.judgesAlone_ofLine {source : Source} {marker : List Char} {isDigit : Char → Bool}
    (hdigit : ∀ c, isDigit c → Text.isWord c) :
    JudgesAlone (Define.ofLine source marker isDigit) (Define.IsFault source marker isDigit) where
  error_iff line n e := by
    constructor
    · intro h
      by_cases hwritten : ∃ d : Define, d.Written marker isDigit line
      · obtain ⟨d, hd⟩ := hwritten
        have hlarge : 2 ^ 32 ≤ Text.hexValue d.digits := by
          by_contra hsmall
          obtain ⟨code, hcode⟩ := Text.exists_toNat_eq (Nat.not_le.1 hsmall)
          rw [Define.ofLine_of_written hdigit hd hcode.symm] at h
          cases h
        rw [Define.ofLine_of_tooLarge hdigit hd hlarge] at h
        exact ⟨_, .tooLarge d hd hlarge, (Except.error.inj h).symm⟩
      · have hnone : ∀ d : Define, ¬ d.Written marker isDigit line :=
          fun d hd => hwritten ⟨d, hd⟩
        by_cases hmarker : marker <+: line
        · rw [Define.ofLine_of_malformed hdigit hnone hmarker] at h
          exact ⟨_, .malformed hmarker hnone, (Except.error.inj h).symm⟩
        · rw [Define.ofLine_of_other hdigit hnone hmarker] at h
          cases h
    · rintro ⟨fault, hfault, rfl⟩
      cases hfault with
      | malformed hmarker h => exact Define.ofLine_of_malformed hdigit h hmarker
      | tooLarge d h hlarge => exact Define.ofLine_of_tooLarge hdigit h hlarge
  moved line fault h n k := by
    cases h <;> rfl

theorem PrimarySymbol.judgesAlone_ofLine :
    JudgesAlone PrimarySymbol.ofLine PrimaryTable.IsFault where
  error_iff line n e := by
    rw [ofLine_eq_error_iff]
    exact (Define.judgesAlone_ofLine Text.isWord_of_isLowerHexDigit).error_iff line n e
  moved := (Define.judgesAlone_ofLine Text.isWord_of_isLowerHexDigit).moved

theorem VendorTable.judgesAlone_ofLine :
    JudgesAlone VendorTable.ofLine VendorTable.IsFault where
  error_iff line n e := by
    have hdefine := (Define.judgesAlone_ofLine Text.isWord_of_isHexDigit
      : JudgesAlone (Define.ofLine .vendor marker Text.isHexDigit) _).error_iff line n e
    rw [ofLine_eq_error_iff, hdefine]
    constructor
    · rintro (⟨fault, hfault, rfl⟩ | ⟨d, code, hd, hvendor, rfl⟩)
      · exact ⟨fault, .define fault hfault, rfl⟩
      · obtain ⟨hwritten, hcode⟩ := (Define.ofLine_eq_ok_some_iff Text.isWord_of_isHexDigit).1 hd
        rw [Keysym.isVendor_iff, ← hcode] at hvendor
        exact ⟨_, .outOfRange d code hwritten hcode hvendor, rfl⟩
    · rintro ⟨fault, hfault, rfl⟩
      cases hfault with
      | define fault h => exact .inl ⟨fault, h, rfl⟩
      | outOfRange d code h hcode hrange =>
        refine .inr ⟨d, code, Define.ofLine_of_written Text.isWord_of_isHexDigit h hcode, ?_, rfl⟩
        rw [Keysym.isVendor_iff, ← hcode]
        exact hrange
  moved line fault h n k := by
    cases h with
    | define fault h => exact (Define.judgesAlone_ofLine Text.isWord_of_isHexDigit).moved _ _ h n k
    | outOfRange d code h hcode hrange => rfl

theorem ToolkitTable.judgesAlone_ofLine :
    JudgesAlone ToolkitTable.ofLine ToolkitTable.IsFault where
  error_iff line n e := by
    rw [ofLine_eq_error_iff]
    constructor
    · rintro ⟨name, digits, hwritten, hlarge, rfl⟩
      exact ⟨_, .tooLarge name digits hwritten hlarge, rfl⟩
    · rintro ⟨fault, ⟨name, digits, hwritten, hlarge⟩, rfl⟩
      exact ⟨name, digits, hwritten, hlarge, rfl⟩
  moved line fault h n k := by
    cases h
    rfl

end Judges

/-- Each of the three headers reports the first faulty line. -/
theorem headers_reportFirst :
    ReportsFirst (fun text => (PrimaryTable.ofText text).outcome) PrimaryTable.IsFault ∧
      ReportsFirst (fun text => (VendorTable.ofText text).outcome) VendorTable.IsFault ∧
      ReportsFirst (fun text => (ToolkitTable.ofText text).outcome) ToolkitTable.IsFault := by
  refine ⟨PrimarySymbol.judgesAlone_ofLine.reportsFirst ?_,
    VendorTable.judgesAlone_ofLine.reportsFirst ?_,
    ToolkitTable.judgesAlone_ofLine.reportsFirst ?_⟩
  · intro text e
    rw [← PrimaryTable.definitions, PrimaryTable.ofText]
    cases (PrimaryTable.definitions text).failure <;> simp
  · intro text e
    rw [← VendorTable.definitions, VendorTable.ofText]
    cases (VendorTable.definitions text).failure <;> simp [Logged.fail]
  · intro text e
    rw [← ToolkitTable.definitions, ToolkitTable.ofText]
    cases (ToolkitTable.definitions text).failure <;> simp [Logged.fail]

/-- A deprecated name that is taken is an error nevertheless if its code does not fit. -/
example : (PrimaryTable.ofText "#define XK_a 0x61\n#define XK_a 0x100000061 /*(old)*/\n").outcome =
    .error (.invalidCode .keysymdef 2 "#define XK_a 0x100000061 /*(old)*/") := by
  decide

end KeyDispatch
