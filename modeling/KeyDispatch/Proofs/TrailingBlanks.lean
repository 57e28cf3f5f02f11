import KeyDispatch.Generation
import KeyDispatch.Proofs.LineGrammar
import KeyDispatch.Proofs.RustMeaning

/-!
# Blanks at the ends of lines

`Text.Padded` relates a text to one that has more blanks at the ends of its lines, carriage returns
among them, and perhaps a line feed at its end that the other one has not. None of the three headers
tells the two apart: a blank at the end of a line is neither read nor reported
(`Define.ofLine_append_blank`, `ToolkitTable.ofLine_append_blank`), so two such texts are scanned
alike, line by line (`IgnoresEnds.scan_of_padded`), and give the same table or the same error
(`buildTable_eq_of_padded`).
-/

namespace KeyDispatch

open Text (isBlank trimEnd trimStart linesFrom dropReturn)

/-! ## Texts with more blanks -/

namespace Text

/-- Blanks without a line feed. -/
def IsPadding (blanks : List Char) : Prop := ∀ c ∈ blanks, isBlank c = true ∧ c ≠ '\n'

/-- The second text is the first one with blanks appended to some of its lines; at the end of the
text one of them may have a line feed that the other one has not. -/
inductive Padded : List Char → List Char → Prop where
  | char {c cs cs'} (h : Padded cs cs') : Padded (c :: cs) (c :: cs')
  | lineEnd {blanks cs cs'} (hblanks : IsPadding blanks) (h : Padded cs cs') :
    Padded ('\n' :: cs) (blanks ++ '\n' :: cs')
  | textEnd {blanks last last'} (hblanks : IsPadding blanks) (hlast : last = [] ∨ last = ['\n'])
    (hlast' : last' = [] ∨ last' = ['\n']) : Padded last (blanks ++ last')

/-- The text with the same blanks appended to every line that a line feed ends. -/
def padLines (blanks : List Char) (cs : List Char) : List Char :=
  cs.flatMap fun c => if c = '\n' then blanks ++ ['\n'] else [c]

theorem isPadding_nil : IsPadding [] := fun _ h => absurd h List.not_mem_nil

theorem padded_padLines {blanks : List Char} (h : IsPadding blanks) (cs : List Char) :
    Padded cs (padLines blanks cs) := by
  induction cs with
  | nil => exact .textEnd isPadding_nil (.inl rfl) (.inl rfl)
  | cons c cs ih =>
    rw [padLines, List.flatMap_cons]
    split
    · next hc =>
      subst hc
      rw [List.append_assoc]
      exact .lineEnd h ih
    · exact .char ih

theorem IsPadding.newline_notMem {blanks : List Char} (h : IsPadding blanks) : '\n' ∉ blanks :=
  fun hmem => (h _ hmem).2 rfl

theorem IsPadding.trimEnd_append {blanks : List Char} (h : IsPadding blanks) (line : List Char) :
    trimEnd (line ++ blanks) = trimEnd line :=
  Text.trimEnd_append line fun c hc => (h c hc).1

theorem IsPadding.trimEnd_dropReturn {blanks : List Char} (h : IsPadding blanks)
    (acc : List Char) :
    trimEnd (dropReturn (blanks.reverse ++ acc)).reverse = trimEnd acc.reverse := by
  rw [← List.reverse_reverse (_ ++ acc), Text.trimEnd_dropReturn, List.reverse_append,
    List.reverse_reverse, h.trimEnd_append]

theorem isHexDigit_of_isBlank {c : Char} (h : isBlank c = true) : isHexDigit c = false :=
  Bool.eq_false_iff.2 fun hhex => not_isWord_of_isBlank c h (isWord_of_isHexDigit c hhex)

theorem trimStart_append_blank {c : Char} (h : isBlank c = true) (cs : List Char) :
    trimStart (cs ++ [c]) = if (trimStart cs).isEmpty then [] else trimStart cs ++ [c] := by
  unfold trimStart
  rw [List.dropWhile_append]
  split
  · exact List.dropWhile_cons_of_pos h
  · rfl

end Text

/-! ## Lines with one more blank -/

/-- A start that is not blank stands behind a run, or does not, whatever blank ends the text. -/
theorem strip?_dropWhile_append_singleton {p : Char → Bool} {start : List Char} {c : Char}
    (hne : start ≠ []) (h : start.getLast? ≠ some c) (cs : List Char) :
    strip? start ((cs ++ [c]).dropWhile p) = (strip? start (cs.dropWhile p)).map (· ++ [c]) := by
  have hnil : strip? start [] = none := by
    obtain ⟨s, start, rfl⟩ := List.exists_cons_of_ne_nil hne
    rfl
  have hone : strip? start [c] = none := by
    have happend := strip?_append_singleton h []
    rwa [hnil] at happend
  rw [List.dropWhile_append]
  split
  · next hempty =>
    rw [List.isEmpty_iff.1 hempty, hnil, List.dropWhile_cons]
    split
    · exact hnil
    · exact hone
  · exact strip?_append_singleton h _

/-- A line of a header is read alike with a blank more at its end. -/
theorem Define.ofLine_append_blank {source : Source} {marker : List Char} {isDigit : Char → Bool}
    {c : Char} (h : isBlank c = true) (hmarker : marker.getLast? ≠ some c)
    (hdigit : isDigit c = false) (n : Nat) (line : List Char) :
    ofLine source marker isDigit ⟨n, line ++ [c]⟩ = ofLine source marker isDigit ⟨n, line⟩ := by
  unfold ofLine
  simp only [read?_append_blank h hmarker hdigit, isPrefixOf_append_singleton hmarker,
    Text.trim_append_blank h]

namespace ToolkitTable

theorem isTail_append_blank {c : Char} (h : isBlank c = true) (cs : List Char) :
    isTail (cs ++ [c]) = isTail cs := by
  have hslash : ['/', '/'].getLast? ≠ some c := Text.some_ne_of_isBlank h rfl
  have hcomment : ∀ rest, ((trimStart (rest ++ [c])).isEmpty ||
      ['/', '/'].isPrefixOf (trimStart (rest ++ [c]))) =
        ((trimStart rest).isEmpty || ['/', '/'].isPrefixOf (trimStart rest)) := by
    intro rest
    rw [Text.trimStart_append_blank h]
    cases hrest : trimStart rest with
    | nil => rfl
    | cons d rest =>
      rw [List.isEmpty_cons, if_neg Bool.false_ne_true, isPrefixOf_append_singleton hslash]
      rfl
  unfold isTail
  dsimp only
  rw [Text.trimStart_append_blank h]
  cases htrim : trimStart cs with
  | nil => rfl
  | cons d rest =>
    -- a comma behind the digits is followed by the rest, with the blank at its end
    rw [List.isEmpty_cons, if_neg Bool.false_ne_true, List.cons_append, List.head?_cons,
      List.head?_cons, List.tail_cons, List.tail_cons]
    split
    · exact hcomment rest
    · exact hcomment (d :: rest)

theorem read?_append_blank {c : Char} (h : isBlank c = true) (line : List Char) :
    read? (line ++ [c]) = read? line := by
  have hkey : "Key_".toList.getLast? ≠ some c := Text.some_ne_of_isBlank h rfl
  have hequals : ['='].getLast? ≠ some c := Text.some_ne_of_isBlank h rfl
  have hbase : ['0', 'x'].getLast? ≠ some c := Text.some_ne_of_isBlank h rfl
  unfold read?
  simp only [Option.bind_eq_bind, strip?_dropWhile_append_singleton (by decide) hkey,
    Option.bind_map, Function.comp_def, trimStart,
    splitRun?_append_singleton (Text.isWord_of_isBlank h),
    strip?_dropWhile_append_singleton (List.cons_ne_nil _ _) hequals,
    strip?_dropWhile_append_singleton (List.cons_ne_nil _ _) hbase,
    splitRun?_append_singleton (Text.isHexDigit_of_isBlank h), isTail_append_blank h]

theorem ofLine_append_blank {c : Char} (h : isBlank c = true) (n : Nat) (line : List Char) :
    ofLine ⟨n, line ++ [c]⟩ = ofLine ⟨n, line⟩ := by
  unfold ofLine
  simp only [read?_append_blank h, Text.trim_append_blank h]

end ToolkitTable

/-! ## Scans -/

/-- The lines are read as their contents without the blanks at the end, and an empty line as
nothing. -/
structure IgnoresEnds {α : Type} (read : Numbered (List Char) → Except HeaderError (Option α)) :
    Prop where
  read_trimEnd : ∀ n line, read ⟨n, trimEnd line⟩ = read ⟨n, line⟩
  read_nil : ∀ n, read ⟨n, []⟩ = .ok none

namespace IgnoresEnds

variable {α : Type} {read : Numbered (List Char) → Except HeaderError (Option α)}

/-- It is enough that no blank at the end of a line is noticed. -/
theorem of_append_blank
    (h : ∀ n line c, isBlank c = true → read ⟨n, line ++ [c]⟩ = read ⟨n, line⟩)
    (hnil : ∀ n, read ⟨n, []⟩ = .ok none) : IgnoresEnds read where
  read_trimEnd n line := Text.apply_trimEnd (f := fun line => read ⟨n, line⟩) (h n) line
  read_nil := hnil

variable (hread : IgnoresEnds read)

include hread

theorem read_eq_of_trimEnd {line line' : List Char} (h : trimEnd line = trimEnd line') (n : Nat) :
    read ⟨n, line⟩ = read ⟨n, line'⟩ := by
  rw [← hread.read_trimEnd n line, h, hread.read_trimEnd]

/-- A line counts by its contents without the blanks at the end. -/
theorem scan_cons_of_trimEnd {line line' : List Char} (h : trimEnd line = trimEnd line') (n : Nat)
    {ls ls' : List (Numbered (List Char))} (hls : scan read ls = scan read ls') :
    scan read (⟨n, line⟩ :: ls) = scan read (⟨n, line'⟩ :: ls') := by
  rw [scan, scan, hread.read_eq_of_trimEnd h, hls]

/-- The end of a text gives the line that it began, or nothing if that is blank. -/
theorem scan_textEnd {blanks last : List Char} (hblanks : Text.IsPadding blanks)
    (hlast : last = [] ∨ last = ['\n']) (n : Nat) (acc : List Char) :
    scan read (numberFrom n (linesFrom acc (blanks ++ last))) = scan read [⟨n, acc.reverse⟩] := by
  have hline := hblanks.newline_notMem
  rcases hlast with rfl | rfl
  · rw [List.append_nil, Text.linesFrom_last hline]
    split
    · next hempty =>
      rw [Bool.and_eq_true_iff, List.isEmpty_iff] at hempty
      rw [hempty.1, List.reverse_nil, scan, hread.read_nil]
      rfl
    · exact hread.scan_cons_of_trimEnd (hblanks.trimEnd_append _) n rfl
  · rw [Text.linesFrom_line hline]
    exact hread.scan_cons_of_trimEnd (hblanks.trimEnd_dropReturn acc) n rfl

/-- A text with more blanks is scanned like the text, by induction on the two; the first line of
both began with the same characters. -/
theorem scan_of_padded {cs cs' : List Char} (h : Text.Padded cs cs') (n : Nat) (acc : List Char) :
    scan read (numberFrom n (linesFrom acc cs')) = scan read (numberFrom n (linesFrom acc cs)) := by
  induction h generalizing n acc with
  | @char c cs cs' h ih =>
    rw [linesFrom, linesFrom]
    split
    · exact hread.scan_cons_of_trimEnd rfl n (ih (n + 1) [])
    · exact ih n (c :: acc)
  | @lineEnd blanks cs cs' hblanks h ih =>
    rw [Text.linesFrom_line hblanks.newline_notMem, linesFrom, if_pos rfl]
    have hacc : trimEnd (dropReturn acc).reverse = trimEnd acc.reverse :=
      Text.isPadding_nil.trimEnd_dropReturn acc
    exact hread.scan_cons_of_trimEnd ((hblanks.trimEnd_dropReturn acc).trans hacc.symm) n
      (ih (n + 1) [])
  | @textEnd blanks last last' hblanks hlast hlast' =>
    have hplain := hread.scan_textEnd Text.isPadding_nil hlast n acc
    rw [hread.scan_textEnd hblanks hlast' n acc, ← hplain, List.nil_append]

end IgnoresEnds

/-! ## The three headers -/

theorem PrimarySymbol.ignoresEnds_ofLine : IgnoresEnds PrimarySymbol.ofLine := by
  refine .of_append_blank (fun n line c h => ?_) fun n => by rfl
  have hmarker : marker.getLast? ≠ some c := Text.some_ne_of_isBlank h rfl
  unfold ofLine
  rw [Define.ofLine_append_blank h hmarker (Text.isLowerHexDigit_of_isBlank h)]

theorem VendorTable.ignoresEnds_ofLine : IgnoresEnds VendorTable.ofLine := by
  refine .of_append_blank (fun n line c h => ?_) fun n => by rfl
  have hmarker : marker.getLast? ≠ some c := Text.some_ne_of_isBlank h rfl
  unfold ofLine
  rw [Define.ofLine_append_blank h hmarker (Text.isHexDigit_of_isBlank h)]

theorem ToolkitTable.ignoresEnds_ofLine : IgnoresEnds ToolkitTable.ofLine :=
  .of_append_blank (fun n line _ h => ofLine_append_blank h n line) fun n => by rfl

/-- Each header of the second sources is that of the first ones with more blanks. -/
structure SourceTexts.Padded (sources padded : SourceTexts) : Prop where
  keysymdef : Text.Padded sources.keysymdef.toList padded.keysymdef.toList
  vendor : Text.Padded sources.vendor.toList padded.vendor.toList
  toolkit : Text.Padded sources.toolkit.toList padded.toolkit.toList

/-- Headers that differ only in blanks at the ends of lines, carriage returns among them, and in a
line feed at the end of the text, give the same table, or the same error at the same line and with
the same text, and the same events. -/
theorem buildTable_eq_of_padded {sources padded : SourceTexts} (h : sources.Padded padded)
    (overrides : Overrides) : buildTable padded overrides = buildTable sources overrides := by
  have hprimary : PrimaryTable.definitions padded.keysymdef =
      PrimaryTable.definitions sources.keysymdef :=
    PrimarySymbol.ignoresEnds_ofLine.scan_of_padded h.keysymdef 1 []
  have hvendor : VendorTable.definitions padded.vendor = VendorTable.definitions sources.vendor :=
    VendorTable.ignoresEnds_ofLine.scan_of_padded h.vendor 1 []
  have htoolkit : ToolkitTable.definitions padded.toolkit =
      ToolkitTable.definitions sources.toolkit :=
    ToolkitTable.ignoresEnds_ofLine.scan_of_padded h.toolkit 1 []
  rw [buildTable, buildTable, PrimaryTable.ofText, hprimary, VendorTable.ofText, hvendor,
    ToolkitTable.ofText, htoolkit]
  rfl

/-- The sources with the same blanks appended to every line that a line feed ends. -/
def SourceTexts.padLines (blanks : List Char) (sources : SourceTexts) : SourceTexts where
  keysymdef := String.ofList (Text.padLines blanks sources.keysymdef.toList)
  vendor := String.ofList (Text.padLines blanks sources.vendor.toList)
  toolkit := String.ofList (Text.padLines blanks sources.toolkit.toList)

theorem SourceTexts.padded_padLines {blanks : List Char} (h : Text.IsPadding blanks)
    (sources : SourceTexts) : sources.Padded (sources.padLines blanks) := by
  refine ⟨?_, ?_, ?_⟩
  all_goals
    rw [padLines, String.toList_ofList]
    exact Text.padded_padLines h _

/-- Headers with a line that is no definition. -/
def faultyHeaders : SourceTexts := ⟨"#define XK_a 0x61\n#define XK_b \n", "", ""⟩

/-- Tabulators and carriage returns at all line ends leave a table as it is, and an error too. -/
theorem buildTable_eq_of_padded_crlf :
    Text.IsPadding ['\t', '\r'] ∧
      swapHeaders.Padded (swapHeaders.padLines ['\t', '\r']) ∧
      (buildTable (swapHeaders.padLines ['\t', '\r']) .builtin).outcome = .ok swapTable ∧
      faultyHeaders.Padded (faultyHeaders.padLines ['\t', '\r']) ∧
      (buildTable (faultyHeaders.padLines ['\t', '\r']) .empty).outcome =
        .error (.header (.malformedDefinition .keysymdef 2 "#define XK_b")) := by
  have hblanks : Text.IsPadding ['\t', '\r'] := by
    intro c hc
    rcases List.mem_pair.1 hc with rfl | rfl <;> decide
  have hswap := SourceTexts.padded_padLines hblanks swapHeaders
  have hfaulty := SourceTexts.padded_padLines hblanks faultyHeaders
  refine ⟨hblanks, hswap, ?_, hfaulty, ?_⟩
  · rw [buildTable_eq_of_padded hswap]
    exact buildTable_swapHeaders
  · rw [buildTable_eq_of_padded hfaulty]
    decide +kernel

end KeyDispatch
