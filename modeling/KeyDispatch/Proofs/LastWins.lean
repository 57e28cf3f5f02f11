import KeyDispatch.Proofs.FirstFault
import KeyDispatch.Proofs.SpellingCounts
import KeyDispatch.Proofs.VendorAddition

/-!
# The last definition counts

The vendor header and the toolkit's header are read line by line: a line gives what the grammar
finds on it, or nothing, and all lines together give their finds in order (`Collects`). A table
holds for each name the last of them. So the toolkit's table is the table of the enumerators
(`ToolkitTable.ofText_readsEnumerators`), and a vendor symbol has the value of the last line that
defines its name, whatever values other names have (`VendorTable.ofText_keepsLast`).
-/

namespace KeyDispatch

open Text (isHexDigit)

/-! ## The last element of a kind -/

/-- An element with `p` stands in the list, and none with `q` behind it. -/
def HasLast {α : Type} (p q : α → Prop) (l : List α) : Prop :=
  ∃ before a after, l = before ++ a :: after ∧ p a ∧ ∀ b ∈ after, ¬ q b

section HasLast

variable {α : Type} {p q : α → Prop} {a : α} {l : List α}

theorem not_hasLast_nil : ¬ HasLast p q [] := by
  rintro ⟨before, a, after, hl, -⟩
  exact absurd hl.symm (by simp)

/-- The first element counts only if none behind it does. -/
theorem hasLast_cons_iff :
    HasLast p q (a :: l) ↔ HasLast p q l ∨ p a ∧ ∀ b ∈ l, ¬ q b := by
  constructor
  · rintro ⟨before, b, after, hl, hp, hafter⟩
    cases before with
    | nil =>
      obtain ⟨rfl, rfl⟩ := List.cons.inj hl
      exact .inr ⟨hp, hafter⟩
    | cons c before =>
      obtain ⟨rfl, rfl⟩ := List.cons.inj hl
      exact .inl ⟨before, b, after, rfl, hp, hafter⟩
  · rintro (⟨before, b, after, rfl, hp, hafter⟩ | ⟨hp, hl⟩)
    · exact ⟨a :: before, b, after, rfl, hp, hafter⟩
    · exact ⟨[], a, l, rfl, hp, hl⟩

end HasLast

/-! ## Maps of lists -/

namespace SortedMap

variable {β : Type} {entries : List (String × β)} {key : String}

/-- A map of a list holds the last value of a key. -/
theorem get?_ofList_eq_some_iff_hasLast {v : β} :
    (ofList entries).get? key = some v ↔ HasLast (· = (key, v)) (·.1 = key) entries := by
  rw [ofList, get?_insertMany, get?_empty, Option.or_none, Option.map_eq_some_iff]
  constructor
  · rintro ⟨e, hfind, rfl⟩
    -- in the reversed list the last entry is the first one that is found
    obtain ⟨hkey, after, before, hreverse, hafter⟩ := List.find?_eq_some_iff_append.1 hfind
    have hentries := congrArg List.reverse hreverse
    rw [List.reverse_reverse, List.reverse_append, List.reverse_cons, List.append_assoc,
      List.singleton_append] at hentries
    refine ⟨before.reverse, e, after.reverse, hentries, Prod.ext (eq_of_beq hkey) rfl, ?_⟩
    intro e' he' hkey'
    simpa [hkey'] using hafter e' (List.mem_reverse.1 he')
  · rintro ⟨before, e, after, rfl, rfl, hafter⟩
    have hnone : after.reverse.find? (fun e => e.1 == key) = none := by
      rw [List.find?_eq_none]
      intro e he hkey
      exact hafter e (List.mem_reverse.1 he) (eq_of_beq hkey)
    refine ⟨(key, v), ?_, rfl⟩
    rw [List.reverse_append, List.reverse_cons, List.append_assoc, List.find?_append, hnone]
    simp

/-- It has exactly the keys of the list. -/
theorem contains_ofList_iff :
    (ofList entries).contains key = true ↔ key ∈ entries.map (·.1) := by
  rw [contains, ofList, get?_insertMany, get?_empty, Option.or_none, Option.isSome_map,
    List.find?_isSome]
  simp only [List.mem_reverse, List.mem_map, beq_iff_eq]

theorem get?_ofList_eq_none_iff :
    (ofList entries).get? key = none ↔ ∀ e ∈ entries, e.1 ≠ key := by
  rw [← Option.not_isSome_iff_eq_none, ← contains, contains_ofList_iff, List.mem_map]
  simp only [not_exists, not_and, ne_eq]

end SortedMap

/-! ## Lines that are collected -/

/-- What lines give in their order: a line that defines something gives it, and any other line is
one that is skipped. -/
inductive Collects {α : Type} (Defines : List Char → α → Prop) (Skipped : List Char → Prop) :
    List (List Char) → List α → Prop where
  | nil : Collects Defines Skipped [] []
  | defined {line : List Char} {a : α} {ls : List (List Char)} {as : List α}
      (h : Defines line a) (rest : Collects Defines Skipped ls as) :
      Collects Defines Skipped (line :: ls) (a :: as)
  | skipped {line : List Char} {ls : List (List Char)} {as : List α}
      (h : Skipped line) (rest : Collects Defines Skipped ls as) :
      Collects Defines Skipped (line :: ls) as

/-- A line is read by itself: what it defines, and whether it is skipped, does not depend on where
it stands. -/
structure ReadsAlone {α : Type} (read : Numbered (List Char) → Except HeaderError (Option α))
    (Defines : List Char → α → Prop) (Skipped : List Char → Prop) : Prop where
  defined_iff : ∀ l a, read l = .ok (some a) ↔ Defines l.content a
  skipped_iff : ∀ l, read l = .ok none ↔ Skipped l.content

section Collects

variable {α : Type} {read : Numbered (List Char) → Except HeaderError (Option α)}
  {Defines : List Char → α → Prop} {Skipped : List Char → Prop}

/-- A scan without an error finds what the lines give, by induction on the lines. -/
theorem ReadsAlone.collects_iff (h : ReadsAlone read Defines Skipped) (n : Nat)
    {ls : List (List Char)} {as : List α} :
    Collects Defines Skipped ls as ↔ (scan read (numberFrom n ls)).failure = none ∧
      as = (scan read (numberFrom n ls)).found.map (·.content) := by
  induction ls generalizing n as with
  | nil =>
    constructor
    · intro hcollects
      cases hcollects
      exact ⟨rfl, rfl⟩
    · rintro ⟨-, rfl⟩
      exact .nil
  | cons line ls ih =>
    rw [numberFrom, scan]
    constructor
    · intro hcollects
      cases hcollects with
      | defined hline rest =>
        obtain ⟨hfailure, rfl⟩ := (ih (n + 1)).1 rest
        rw [(h.defined_iff ⟨n, line⟩ _).2 hline]
        exact ⟨hfailure, rfl⟩
      | skipped hline rest =>
        obtain ⟨hfailure, rfl⟩ := (ih (n + 1)).1 rest
        rw [(h.skipped_iff ⟨n, line⟩).2 hline]
        exact ⟨hfailure, rfl⟩
    · intro hscan
      cases hread : read ⟨n, line⟩ with
      | error e =>
        rw [hread] at hscan
        cases hscan.1
      | ok found =>
        rw [hread] at hscan
        cases found with
        | none => exact .skipped ((h.skipped_iff _).1 hread) ((ih (n + 1)).2 hscan)
        | some a =>
          obtain ⟨hfailure, rfl⟩ := hscan
          exact .defined ((h.defined_iff _ a).1 hread) ((ih (n + 1)).2 ⟨hfailure, rfl⟩)

/-- So what is made of the lines is made of what the scan finds. -/
theorem ReadsAlone.exists_collects_iff {τ : Type} (h : ReadsAlone read Defines Skipped) (n : Nat)
    {ls : List (List Char)} {make : List α → τ} {t : τ} :
    (∃ as, Collects Defines Skipped ls as ∧ t = make as) ↔
      (scan read (numberFrom n ls)).failure = none ∧
        make ((scan read (numberFrom n ls)).found.map (·.content)) = t := by
  constructor
  · rintro ⟨as, hcollects, rfl⟩
    obtain ⟨hfailure, rfl⟩ := (h.collects_iff n).1 hcollects
    exact ⟨hfailure, rfl⟩
  · rintro ⟨hfailure, rfl⟩
    exact ⟨_, (h.collects_iff n).2 ⟨hfailure, rfl⟩, rfl⟩

/-- A line defines one thing. -/
theorem ReadsAlone.unique (h : ReadsAlone read Defines Skipped) {line : List Char} {a b : α}
    (ha : Defines line a) (hb : Defines line b) : a = b := by
  have hread := (h.defined_iff ⟨0, line⟩ a).2 ha
  rw [(h.defined_iff ⟨0, line⟩ b).2 hb] at hread
  exact (Option.some.inj (Except.ok.inj hread)).symm

/-- A line that is skipped defines nothing. -/
theorem ReadsAlone.not_defines (h : ReadsAlone read Defines Skipped) {line : List Char}
    (hline : Skipped line) (a : α) : ¬ Defines line a := by
  intro ha
  have hread := (h.defined_iff ⟨0, line⟩ a).2 ha
  rw [(h.skipped_iff ⟨0, line⟩).2 hline] at hread
  cases hread

variable {ls : List (List Char)} {as : List α}

/-- A line that is not skipped defines something. -/
theorem Collects.exists_defines (hcollects : Collects Defines Skipped ls as) {line : List Char}
    (hline : line ∈ ls) (hskipped : ¬ Skipped line) : ∃ a, Defines line a := by
  induction hcollects with
  | nil => cases hline
  | defined ha rest ih =>
    rcases List.mem_cons.1 hline with rfl | hline
    · exact ⟨_, ha⟩
    · exact ih hline
  | skipped hskip rest ih =>
    rcases List.mem_cons.1 hline with rfl | hline
    · exact absurd hskip hskipped
    · exact ih hline

variable (h : ReadsAlone read Defines Skipped) (hcollects : Collects Defines Skipped ls as)

include h hcollects

/-- Everything that is given stands on a line. -/
theorem Collects.mem_iff {a : α} : a ∈ as ↔ ∃ line ∈ ls, Defines line a := by
  induction hcollects with
  | nil => simp
  | defined hline rest ih =>
    rw [List.mem_cons, List.exists_mem_cons_iff, ih]
    apply or_congr_left
    exact ⟨fun ha => ha ▸ hline, fun ha => h.unique ha hline⟩
  | skipped hline rest ih =>
    rw [List.exists_mem_cons_iff, or_iff_right (h.not_defines hline a), ih]

/-- The last thing of a kind stands on the last line that gives one, by induction on the lines. -/
theorem Collects.hasLast_iff {p q : α → Prop} :
    HasLast p q as ↔
      HasLast (fun line => ∃ a, Defines line a ∧ p a) (fun line => ∃ a, Defines line a ∧ q a)
        ls := by
  induction hcollects with
  | nil => exact iff_of_false not_hasLast_nil not_hasLast_nil
  | @defined line a ls as hline rest ih =>
    have hat : ∀ r : α → Prop, (∃ b, Defines line b ∧ r b) ↔ r a := by
      intro r
      constructor
      · rintro ⟨b, hb, hr⟩
        exact h.unique hb hline ▸ hr
      · exact fun hr => ⟨a, hline, hr⟩
    have hbehind : (∀ b ∈ as, ¬ q b) ↔ ∀ l ∈ ls, ¬ ∃ b, Defines l b ∧ q b := by
      simp only [Collects.mem_iff h rest]
      constructor
      · rintro hnone l hl ⟨b, hb, hq⟩
        exact hnone b ⟨l, hl, hb⟩ hq
      · rintro hnone b ⟨l, hl, hb⟩ hq
        exact hnone l hl ⟨b, hb, hq⟩
    rw [hasLast_cons_iff, hasLast_cons_iff, ih, hat p, hbehind]
  | @skipped line ls as hline rest ih =>
    have hnone : ¬ ((∃ b, Defines line b ∧ p b) ∧ ∀ l ∈ ls, ¬ ∃ b, Defines l b ∧ q b) := by
      rintro ⟨⟨b, hb, -⟩, -⟩
      exact h.not_defines hline b hb
    rw [hasLast_cons_iff, or_iff_left hnone, ih]

end Collects

/-! ## The toolkit's keys -/

namespace ToolkitTable

/-- The line is an enumerator of the key. -/
def Enumerates (line : List Char) (key : String × UInt32) : Prop :=
  ∃ digits, Written key.1.toList digits line ∧ Text.hexValue digits = key.2.toNat

/-- The line is no enumerator. -/
def Skipped (line : List Char) : Prop := ∀ name digits, ¬ Written name digits line

theorem readsAlone_ofLine : ReadsAlone ofLine Enumerates Skipped where
  defined_iff _ _ := ofLine_eq_ok_some_iff
  skipped_iff _ := ofLine_eq_ok_none_iff

/-- A text gives the table of its enumerators, and only a text whose enumerators fit gives one. -/
theorem ofText_outcome_eq_ok_iff {source : String} {t : ToolkitTable} :
    (ofText source).outcome = .ok t ↔
      ∃ keys, Collects Enumerates Skipped (Text.lines source.toList) keys ∧ t = ofPairs keys := by
  rw [readsAlone_ofLine.exists_collects_iff 1, eq_comm (b := t)]
  exact ofText_outcome_eq_ok_iff_definitions

/-- The table holds the last code of each name that is listed, and yields each name once, in the
order of code points. -/
structure HoldsLast (t : ToolkitTable) (keys : List (String × UInt32)) : Prop where
  code_iff : ∀ name code,
    t.code? name = some code ↔ HasLast (· = (name, code)) (·.1 = name) keys
  code_none_iff : ∀ name, t.code? name = none ↔ ∀ key ∈ keys, key.1 ≠ name
  mem_iff : ∀ name code, (name, code) ∈ t.toList ↔ t.code? name = some code
  count_name : ∀ name,
    (t.toList.map (·.1)).count name = if name ∈ keys.map (·.1) then 1 else 0
  ascending : t.toList.Pairwise fun a b => Text.Precedes a.1 b.1

theorem holdsLast_ofPairs (keys : List (String × UInt32)) : (ofPairs keys).HoldsLast keys where
  code_iff _ _ := SortedMap.get?_ofList_eq_some_iff_hasLast
  code_none_iff _ := SortedMap.get?_ofList_eq_none_iff
  mem_iff _ _ := code?_eq_some_iff.symm
  count_name name := by
    have hnodup : ((ofPairs keys).toList.map (·.1)).Nodup :=
      List.pairwise_map.2 (ofPairs keys).keys.keys_ne
    have hmem : name ∈ (ofPairs keys).toList.map (·.1) ↔ name ∈ keys.map (·.1) := by
      rw [← (SortedMap.contains_ofList_iff : (SortedMap.ofList keys).contains name = true ↔ _),
        SortedMap.contains, Option.isSome_iff_exists]
      simp only [SortedMap.get?_eq_some_iff, List.mem_map, Prod.exists, exists_and_right,
        exists_eq_right]
      rfl
    simp only [hnodup.count, hmem]
  ascending := (ofPairs keys).keys.ascending.imp Text.compare_eq_lt_iff.1

/-- A line gives a key exactly if it is an enumerator whose value fits, and is skipped exactly if
it is no enumerator. A text gives the table of its enumerators in file order, and the table of any
list of keys holds the last code of each name. -/
theorem ofText_readsEnumerators :
    ReadsAlone ofLine Enumerates Skipped ∧
      (∀ source t, (ofText source).outcome = .ok t ↔
        ∃ keys, Collects Enumerates Skipped (Text.lines source.toList) keys ∧ t = ofPairs keys) ∧
      ∀ keys, (ofPairs keys).HoldsLast keys :=
  ⟨readsAlone_ofLine, fun _ _ => ofText_outcome_eq_ok_iff, holdsLast_ofPairs⟩

/-- Of two enumerators of one name the second counts, and a line that only looks like one does not.
-/
example : ((ofText "Key_B = 0x10,, \n  Key_A\t=0x1f// a\n Key_A= 0x2F , //\n").outcome.toOption.map
    (·.toList)) = some [("A", 0x2F)] := by
  decide +kernel

end ToolkitTable

/-! ## Vendor symbols -/

namespace VendorTable

/-- The line defines the symbol, whose value lies in the vendor range. -/
def Defines (line : List Char) (symbol : String × Keysym) : Prop :=
  ∃ d : Define, d.Written marker isHexDigit line ∧ symbol.1 = String.ofList d.name ∧
    Text.hexValue d.digits = symbol.2.code.toNat ∧
    0x10080001 ≤ symbol.2.code.toNat ∧ symbol.2.code.toNat ≤ 0x1008FFFF

/-- The line does not start as a definition does. -/
def Skipped (line : List Char) : Prop := ¬ marker <+: line

theorem prefix_of_written {d : Define} {line : List Char} (h : d.Written marker isHexDigit line) :
    marker <+: line := by
  obtain ⟨_, _, _, -, -, -, -, -, hline⟩ := h
  exact ⟨_, hline.symm⟩

theorem readsAlone_ofLine : ReadsAlone ofLine Defines Skipped where
  defined_iff l symbol := by
    have hdefine : ∀ d code, Define.ofLine .vendor marker isHexDigit l = .ok (some (d, code)) ↔
        d.Written marker isHexDigit l.content ∧ Text.hexValue d.digits = code.toNat :=
      fun _ _ => Define.ofLine_eq_ok_some_iff Text.isWord_of_isHexDigit
    rw [ofLine_eq_ok_some_iff]
    constructor
    · rintro ⟨d, code, hd, hvendor, rfl⟩
      obtain ⟨hwritten, hvalue⟩ := (hdefine d code).1 hd
      exact ⟨d, hwritten, rfl, hvalue, Keysym.isVendor_iff.1 hvendor⟩
    · rintro ⟨d, hwritten, hname, hvalue, hrange⟩
      exact ⟨d, symbol.2.code, (hdefine d _).2 ⟨hwritten, hvalue⟩, Keysym.isVendor_iff.2 hrange,
        Prod.ext hname rfl⟩
  skipped_iff l := by
    rw [ofLine_eq_ok_none_iff, Define.ofLine_eq_ok_none_iff Text.isWord_of_isHexDigit]
    -- a definition has the marker
    exact and_iff_right_of_imp fun h d hd => h (prefix_of_written hd)

theorem ofText_outcome_eq_ok_iff {source : String} {t : VendorTable} :
    (ofText source).outcome = .ok t ↔
      ∃ symbols, Collects Defines Skipped (Text.lines source.toList) symbols ∧
        t = ⟨.ofList symbols⟩ := by
  rw [readsAlone_ofLine.exists_collects_iff 1, eq_comm (b := t)]
  exact ofText_outcome_eq_ok_iff_definitions

/-- The table holds the symbols that lines define, each with its last code. -/
structure KeepsLast (t : VendorTable) (ls : List (List Char)) : Prop where
  defines_iff : ∀ line ∈ ls, (∃ symbol, Defines line symbol) ↔
    ∃ d : Define, d.Written marker isHexDigit line
  primary_skipped : ∀ line ∈ ls, PrimarySymbol.marker <+: line → ∀ symbol, ¬ Defines line symbol
  /-- The code of a name is that of the last line that defines it. The codes of other names do not
  count, so two names may have one code. -/
  code_iff : ∀ name code, t.code? name = some code ↔
    HasLast (Defines · (name, code)) (fun line => ∃ other, Defines line (name, other)) ls
  inRange : ∀ name code, t.code? name = some code →
    0x10080001 ≤ code.code.toNat ∧ code.code.toNat ≤ 0x1008FFFF
  contains_iff : ∀ name, t.contains name = true ↔ ∃ code, t.code? name = some code
  size_eq : ∃ names : Finset String,
    (∀ name, name ∈ names ↔ ∃ line ∈ ls, ∃ code, Defines line (name, code)) ∧
      t.size = names.card

/-- A line that starts as a definition of the primary header defines no vendor symbol. -/
theorem not_defines_of_primary {line : List Char} (h : PrimarySymbol.marker <+: line)
    (symbol : String × Keysym) : ¬ Defines line symbol := by
  rintro ⟨d, hwritten, -⟩
  have hprefix : PrimarySymbol.marker <+: marker :=
    List.prefix_of_prefix_length_le h (prefix_of_written hwritten) (by decide)
  exact absurd hprefix (by decide)

/-- The table of the symbols that lines define. -/
theorem keepsLast_ofList {ls : List (List Char)} {symbols : List (String × Keysym)}
    (h : Collects Defines Skipped ls symbols) : KeepsLast ⟨.ofList symbols⟩ ls := by
  have hcode : ∀ name code, code? ⟨.ofList symbols⟩ name = some code ↔
      HasLast (Defines · (name, code)) (fun line => ∃ other, Defines line (name, other)) ls := by
    intro name code
    rw [code?, SortedMap.get?_ofList_eq_some_iff_hasLast, h.hasLast_iff readsAlone_ofLine]
    simp only [exists_eq_right, Prod.exists, exists_and_right]
  refine ⟨?_, fun _ _ => not_defines_of_primary, hcode, ?_, ?_, ?_⟩
  · intro line hline
    constructor
    · rintro ⟨symbol, d, hwritten, -⟩
      exact ⟨d, hwritten⟩
    · rintro ⟨d, hwritten⟩
      exact h.exists_defines hline (not_not_intro (prefix_of_written hwritten))
  · intro name code hname
    obtain ⟨_, _, _, -, ⟨d, -, -, -, hrange⟩, -⟩ := (hcode name code).1 hname
    exact hrange
  · intro name
    exact Option.isSome_iff_exists
  · refine ⟨(symbols.map (·.1)).toFinset, ?_, ?_⟩
    · intro name
      simp only [List.mem_toFinset, List.mem_map, h.mem_iff readsAlone_ofLine]
      constructor
      · rintro ⟨symbol, ⟨line, hline, hsymbol⟩, rfl⟩
        exact ⟨line, hline, symbol.2, hsymbol⟩
      · rintro ⟨line, hline, code, hsymbol⟩
        exact ⟨(name, code), ⟨line, hline, hsymbol⟩, rfl⟩
    · apply SortedMap.size_eq_card
      intro name
      rw [List.mem_toFinset, SortedMap.contains_ofList_iff]

/-- A vendor header gives each name the code of the last line that defines it. -/
theorem ofText_keepsLast {source : String} {t : VendorTable} (h : (ofText source).outcome = .ok t) :
    t.KeepsLast (Text.lines source.toList) := by
  obtain ⟨symbols, hcollects, rfl⟩ := ofText_outcome_eq_ok_iff.1 h
  exact keepsLast_ofList hcollects

/-- A header that defines `Back` again with the code of `Forward`, between lines that define no
vendor symbol. -/
def sharedHeader : String :=
  "#define XF86XK_Back 0x1008FF26 /* back */\n#define XK_a 0x61\n"
    ++ "#define XF86XK_Forward 0x1008ff27\n\n#define XF86XK_Back\t0x1008FF27 \n"

/-- The table of `sharedHeader`. -/
def sharedTable : VendorTable := ⟨.ofList [("Back", ⟨0x1008FF27⟩), ("Forward", ⟨0x1008FF27⟩)]⟩

theorem ofText_sharedHeader : (ofText sharedHeader).outcome = .ok sharedTable := by
  decide +kernel

/-- Both names have one code. -/
theorem ofText_keepsLast_sharedHeader :
    (ofText sharedHeader).outcome = .ok sharedTable ∧
      sharedTable.KeepsLast (Text.lines sharedHeader.toList) ∧
      sharedTable.code? "Back" = some ⟨0x1008FF27⟩ ∧
      sharedTable.code? "Forward" = some ⟨0x1008FF27⟩ ∧ sharedTable.size = 2 :=
  ⟨ofText_sharedHeader, ofText_keepsLast ofText_sharedHeader, by decide, by decide, by decide⟩

end VendorTable

end KeyDispatch
