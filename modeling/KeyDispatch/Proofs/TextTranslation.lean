import KeyDispatch.Proofs.NaiveResolver
import KeyDispatch.Proofs.SymbolLine
import KeyDispatch.Proofs.TableEntries

/-!
# Translation of single characters

The characters that a table translates by themselves are the ones that accepted symbols declare,
each with the code of the first symbol that does (`buildTable_translatesText`). Such a character
decides the answer whatever key was struck; any other text leaves the answer to the key.
-/

namespace KeyDispatch

/-! ## Positions -/

/-- The value of a run of digits has no more digits than the run. -/
theorem Text.hexValue_lt (digits : List Char) : Text.hexValue digits < 16 ^ digits.length := by
  -- with the number `n` read before, by induction on the digits that are left
  have key : ∀ n, digits.foldl (fun n c => 16 * n + Text.digitValue c) n <
      (n + 1) * 16 ^ digits.length := by
    induction digits with
    | nil =>
      intro n
      simp
    | cons c digits ih =>
      intro n
      have hc := Text.digitValue_lt c
      have hle : 16 * n + Text.digitValue c + 1 ≤ (n + 1) * 16 := by omega
      calc (c :: digits).foldl (fun n c => 16 * n + Text.digitValue c) n
          < (16 * n + Text.digitValue c + 1) * 16 ^ digits.length := ih _
        _ ≤ (n + 1) * 16 * 16 ^ digits.length := Nat.mul_le_mul_right _ hle
        _ = (n + 1) * 16 ^ (c :: digits).length := by
          rw [List.length_cons, Nat.pow_succ, Nat.mul_assoc, Nat.mul_comm 16]
  simpa [Text.hexValue] using key 0

namespace PrimarySymbol

theorem declares_iff {s : PrimarySymbol} {position : UInt32} :
    s.declares position = true ↔ ∃ u, s.unicode = some u ∧ u.position = position := by
  unfold declares
  cases s.unicode with
  | none => simp
  | some u => simp

/-- A position is written with six digits at most. -/
theorem position_lt_of_unicodeOf? {comment : List Char} {u : UnicodeEquivalent}
    (h : unicodeOf? comment = some u) : u.position.toNat < 2 ^ 24 := by
  simp only [unicodeOf?, Option.bind_eq_bind, Option.bind_eq_some_iff] at h
  obtain ⟨rest, -, name, -, _, hguard, position, hposition, hu⟩ := h
  obtain rfl := Option.some.inj hu
  have hlength := ((Option.guard_eq_some' _).1 hguard).2
  calc position.toNat = Text.hexValue (rest.takeWhile Text.isUpperHexDigit) :=
        (Text.readWord_eq_some_iff.1 hposition).symm
    _ < 16 ^ (rest.takeWhile Text.isUpperHexDigit).length := Text.hexValue_lt _
    _ ≤ 16 ^ 6 := Nat.pow_le_pow_right (by decide) hlength
    _ = 2 ^ 24 := by decide

theorem position_lt_of_ofLine {l : Numbered (List Char)} {s : PrimarySymbol}
    (h : ofLine l = .ok (some s)) {u : UnicodeEquivalent} (hu : s.unicode = some u) :
    u.position.toNat < 2 ^ 24 := by
  obtain ⟨d, code, -, rfl⟩ := ofLine_eq_ok_some_iff.1 h
  rw [unicode_ofDefine, Option.bind_eq_some_iff] at hu
  obtain ⟨comment, -, hcomment⟩ := hu
  exact position_lt_of_unicodeOf? hcomment

end PrimarySymbol

namespace PrimaryTable

/-- An accepted symbol is one of the definitions. -/
theorem mem_of_mem_symbols_ofDefinitions {ds : List PrimarySymbol} {s : PrimarySymbol}
    (h : s ∈ (ofDefinitions ds).symbols) : s ∈ ds := by
  rw [symbols_ofDefinitions] at h
  obtain ⟨judged, hmem, rfl⟩ := List.mem_map.1 h
  have hds := List.mem_map_of_mem (f := Prod.fst) (List.mem_of_mem_filter hmem)
  rwa [map_fst_judgeFrom] at hds

/-- The positions that the definitions of a text declare have six digits at most. -/
theorem position_lt_of_declares {source : String} {s : PrimarySymbol}
    (h : s ∈ definitionLines source) {position : UInt32} (hd : s.declares position) :
    position.toNat < 2 ^ 24 := by
  obtain ⟨l, -, hl⟩ := List.mem_filterMap.1 h
  obtain ⟨u, hu, rfl⟩ := PrimarySymbol.declares_iff.1 hd
  exact PrimarySymbol.position_lt_of_ofLine (foundOn_eq_some_iff.1 hl) hu

end PrimaryTable

namespace DecisionTable

/-- The table translates the characters that accepted symbols declare, and no other text. -/
structure TranslatesText (t : DecisionTable) (accepted : List PrimarySymbol) : Prop where
  ascending : t.textCases.toList.Pairwise fun a b => a.1 < b.1
  position_lt : ∀ p ∈ t.textCases.toList, p.1.toNat < 2 ^ 24
  position_iff : ∀ position, (∃ code, (position, code) ∈ t.textCases.toList) ↔
    ∃ s ∈ accepted, s.declares position
  /-- A position has the code of the first symbol that declares it. -/
  code_eq : ∀ p ∈ t.textCases.toList, ∃ s, accepted.find? (·.declares p.1) = some s ∧ p.2 = s.code
  dispatch_declared : ∀ (c : Char) (s : PrimarySymbol), accepted.find? (·.declares c.val) = some s →
    ∀ key bits platform, t.dispatch key bits (String.singleton c) platform = some s.code
  dispatch_other : ∀ text : String,
    (∀ c, text = String.singleton c → ∀ s ∈ accepted, ¬ s.declares c.val) →
    ∀ key bits platform, t.dispatch key bits text platform = t.dispatch key bits "" platform

variable {t : DecisionTable} {accepted : List PrimarySymbol}

/-- All of this follows from where the positions and their codes come from. -/
theorem translatesText_of_get?
    (hget : ∀ position, t.textCases.get? position =
      (accepted.find? (·.declares position)).map (·.code))
    (hlt : ∀ s ∈ accepted, ∀ position, s.declares position → position.toNat < 2 ^ 24) :
    t.TranslatesText accepted := by
  have hfirst : ∀ p ∈ t.textCases.toList, ∃ s, accepted.find? (·.declares p.1) = some s ∧
      p.2 = s.code := by
    intro p hp
    have hsome := SortedMap.get?_eq_some_iff.2 (show (p.1, p.2) ∈ t.textCases.toList from hp)
    rw [hget] at hsome
    obtain ⟨s, hs, hcode⟩ := Option.map_eq_some_iff.1 hsome
    exact ⟨s, hs, hcode.symm⟩
  have htext : ∀ c, t.dispatchText? (String.singleton c) =
      (accepted.find? (·.declares c.val)).map (·.code) := by
    intro c
    rw [dispatchText?, String.toList_singleton]
    exact hget c.val
  refine ⟨?_, ?_, ?_, hfirst, ?_, ?_⟩
  · exact t.textCases.ascending.imp fun h => Std.compare_eq_lt.1 h
  · intro p hp
    obtain ⟨s, hs, -⟩ := hfirst p hp
    have hd : s.declares p.1 = true := by simpa using List.find?_some hs
    exact hlt s (List.mem_of_find?_eq_some hs) p.1 hd
  · intro position
    constructor
    · rintro ⟨code, hmem⟩
      obtain ⟨s, hs, -⟩ := hfirst _ hmem
      exact ⟨s, List.mem_of_find?_eq_some hs, by simpa using List.find?_some hs⟩
    · rintro ⟨s, hs, hd⟩
      have hsome : (accepted.find? (·.declares position)).isSome = true :=
        List.find?_isSome.2 ⟨s, hs, hd⟩
      obtain ⟨first, hfind⟩ := Option.isSome_iff_exists.1 hsome
      refine ⟨first.code, SortedMap.get?_eq_some_iff.1 ?_⟩
      rw [hget, hfind]
      rfl
  · intro c s hs key bits platform
    rw [dispatch_eq_or, htext, hs]
    rfl
  · intro text hother key bits platform
    -- neither text is translated, so both leave the answer to the key
    have hnone : t.dispatchText? text = none := by
      unfold dispatchText?
      split
      · rename_i c hc
        have hsingle : text = String.singleton c := by
          rw [← String.toList_inj, hc, String.toList_singleton]
        rw [hget, List.find?_eq_none.2 (hother c hsingle)]
        rfl
      · rfl
    rw [dispatch_eq_or, dispatch_eq_or, hnone]
    rfl

end DecisionTable

/-- The table of any headers translates the characters that the accepted symbols of the primary
header declare, whose order is that of the header's lines. -/
theorem buildTable_translatesText {sources : SourceTexts} {overrides : Overrides}
    {table : DecisionTable} (h : (buildTable sources overrides).outcome = .ok table) :
    ∃ primary, (PrimaryTable.ofText sources.keysymdef).outcome = .ok primary ∧
      primary.symbols =
        Judged.accepted (judgeFrom [] (PrimaryTable.definitionLines sources.keysymdef)) ∧
      table.TranslatesText primary.symbols := by
  obtain ⟨primary, hprimary, vendor, -, toolkit, -, hresolve⟩ := buildTable_outcome_eq_ok_iff.1 h
  obtain ⟨exchanged, -, rfl⟩ := Resolver.exists_exchanged_of_resolve hresolve
  obtain ⟨-, rfl⟩ := PrimaryTable.ofText_outcome_eq_ok_iff.1 hprimary
  have hconsistent :=
    PrimaryTable.consistent_ofDefinitions (PrimaryTable.definitionLines sources.keysymdef)
  refine ⟨_, hprimary, PrimaryTable.symbols_ofDefinitions _, ?_⟩
  apply DecisionTable.translatesText_of_get?
  · exact Resolver.textCases_get?_eq_find? hconsistent
  · intro s hs position hd
    exact PrimaryTable.position_lt_of_declares
      (PrimaryTable.mem_of_mem_symbols_ofDefinitions hs) hd

/-- Headers with a position that two symbols declare, one in a deprecated definition, and one that
is no character. -/
def declaringHeaders : SourceTexts where
  keysymdef :=
    "#define XK_a 0x0061  /* U+0061 LATIN SMALL LETTER A */\n"
      ++ "#define XK_b 0x0062  /* U+0061 AGAIN */\n"
      ++ "#define XK_c 0x0063  /* (U+0063 OLD) */\n#define XK_d 0x0064  /* U+FFFFFF NONE */\n"
  vendor := ""
  toolkit := "    Key_B = 0x42,\n"

/-- The table of `declaringHeaders`. -/
def declaringTable : DecisionTable where
  textCases := .ofList [(0x61, ⟨0x61⟩), (0xFFFFFF, ⟨0x64⟩)]
  entries := #[⟨"B", 0x42, .fixed ⟨0x62⟩⟩]
  diagnostics := []

theorem buildTable_declaringHeaders :
    (buildTable declaringHeaders Overrides.empty).outcome = .ok declaringTable := by
  decide +kernel

/-- The character `a` wins over the key `B`. -/
theorem buildTable_translatesText_declaringHeaders :
    (buildTable declaringHeaders Overrides.empty).outcome = .ok declaringTable ∧
      (∃ primary, (PrimaryTable.ofText declaringHeaders.keysymdef).outcome = .ok primary ∧
        primary.symbols = Judged.accepted
          (judgeFrom [] (PrimaryTable.definitionLines declaringHeaders.keysymdef)) ∧
        declaringTable.TranslatesText primary.symbols) ∧
      declaringTable.dispatch 0x42 0 "a" .other = some ⟨0x61⟩ :=
  ⟨buildTable_declaringHeaders, buildTable_translatesText buildTable_declaringHeaders, by decide⟩

end KeyDispatch
