import KeyDispatch.Primary
import KeyDispatch.Proofs.Spellings

/-!
# The accepted symbols are the first ones

A definition of the primary header meets one of four fates, judged against the symbols accepted
before it (`judge`). Taking definitions one at a time keeps the five parts of a table in step with
one another (`Consistent.take`) and does to the table what the fate says (`take_eq`); so the table
of a header is determined by the fates of its definitions (`ofText_outcome_eq_ok_iff`,
`symbols_ofDefinitions`, `tally_ofDefinitions`).

Accepting by fate is the one way to choose members of a sequence such that a member is not
deprecated and shares neither code nor name with an earlier member (`FirstWins.unique`).
-/

namespace KeyDispatch

/-- The symbol declares the position. -/
def PrimarySymbol.declares (s : PrimarySymbol) (position : UInt32) : Bool :=
  s.unicode.any fun u => u.position == position

/-- What becomes of a definition: its code is accepted already, it is deprecated, its name is
accepted already, or it is accepted. -/
inductive Fate where
  | sameCode
  | deprecated
  | sameName
  | accepted
deriving DecidableEq

/-- The fate of a definition after the accepted symbols `earlier`. -/
def judge (earlier : List PrimarySymbol) (d : PrimarySymbol) : Fate :=
  if ∃ e ∈ earlier, e.code = d.code then .sameCode
  else if d.deprecated then .deprecated
  else if ∃ e ∈ earlier, e.name = d.name then .sameName
  else .accepted

/-- Definitions with their fates. -/
abbrev Judged := List (PrimarySymbol × Fate)

/-- The accepted ones among judged definitions. -/
def Judged.accepted (judged : Judged) : List PrimarySymbol :=
  (judged.filter fun p => p.2 = .accepted).map (·.1)

/-- The definitions with their fates after the accepted symbols `earlier`. -/
def judgeFrom (earlier : List PrimarySymbol) : List PrimarySymbol → Judged
  | [] => []
  | d :: ds =>
    (d, judge earlier d) ::
      judgeFrom (if judge earlier d = .accepted then earlier ++ [d] else earlier) ds

/-- A choice of members of a sequence: each element with a mark that says whether it is one. -/
abbrev Choice := List (PrimarySymbol × Bool)

/-- The members of a choice. -/
def Choice.members (c : Choice) : List PrimarySymbol := (c.filter (·.2)).map (·.1)

/-- A definition is a member exactly if it is not deprecated and no earlier member has its code or
its name. -/
def Choice.FirstWins (c : Choice) : Prop :=
  ∀ before d isMember after, c = before ++ (d, isMember) :: after →
    (isMember = true ↔ d.deprecated = false ∧
      ∀ e ∈ Choice.members before, e.code ≠ d.code ∧ e.name ≠ d.name)

theorem judge_eq_accepted_iff {earlier : List PrimarySymbol} {d : PrimarySymbol} :
    judge earlier d = .accepted ↔
      d.deprecated = false ∧ ∀ e ∈ earlier, e.code ≠ d.code ∧ e.name ≠ d.name := by
  unfold judge
  split
  -- an accepted symbol has the code
  · rename_i h
    obtain ⟨e, he, hc⟩ := h
    exact iff_of_false (by simp) fun hall => (hall.2 e he).1 hc
  · rename_i hcode
    split
    -- the code is free, but the definition is deprecated
    · rename_i hd
      exact iff_of_false (by simp) fun hall => by simp [hd] at hall
    · rename_i hd
      split
      -- the code is free, but an accepted symbol has the name
      · rename_i h
        obtain ⟨e, he, hn⟩ := h
        exact iff_of_false (by simp) fun hall => (hall.2 e he).2 hn
      · rename_i hname
        exact iff_of_true rfl ⟨by simpa using hd,
          fun e he => ⟨fun hc => hcode ⟨e, he, hc⟩, fun hn => hname ⟨e, he, hn⟩⟩⟩

/-- Judging loses no definition and keeps their order. -/
theorem map_fst_judgeFrom (earlier ds : List PrimarySymbol) :
    (judgeFrom earlier ds).map (·.1) = ds := by
  induction ds generalizing earlier with
  | nil => rfl
  | cons d ds ih => simp [judgeFrom, ih]

/-- Each definition is judged against the ones accepted before it. -/
theorem fate_of_judgeFrom {earlier ds : List PrimarySymbol} {before after : Judged}
    {d : PrimarySymbol} {fate : Fate}
    (h : judgeFrom earlier ds = before ++ (d, fate) :: after) :
    fate = judge (earlier ++ Judged.accepted before) d := by
  induction ds generalizing earlier before with
  | nil => simp [judgeFrom] at h
  | cons d' ds ih =>
    cases before with
    | nil =>
      obtain ⟨e, -⟩ := List.cons.inj h
      obtain ⟨rfl, rfl⟩ := Prod.mk.inj e
      simp [Judged.accepted]
    | cons p before =>
      obtain ⟨rfl, ht⟩ := List.cons.inj h
      rw [ih ht]
      -- the first definition joins the accepted ones before the rest, or does not
      by_cases ha : judge earlier d' = .accepted
      · simp [Judged.accepted, ha]
      · simp [Judged.accepted, ha]

/-- The fates of the first definitions do not depend on later ones. -/
theorem judgeFrom_map_fst {earlier ds : List PrimarySymbol} {before rest : Judged}
    (h : judgeFrom earlier ds = before ++ rest) :
    judgeFrom earlier (before.map (·.1)) = before := by
  induction before generalizing earlier ds with
  | nil => rfl
  | cons p before ih =>
    cases ds with
    | nil => simp [judgeFrom] at h
    | cons d ds =>
      obtain ⟨rfl, ht⟩ := List.cons.inj h
      simp only [List.map_cons, judgeFrom]
      rw [ih ht]

/-- Every fate is one of the four. -/
theorem count_fates (fates : List Fate) :
    fates.count .accepted + fates.count .sameCode + fates.count .deprecated
      + fates.count .sameName = fates.length := by
  induction fates with
  | nil => rfl
  | cons fate fates ih =>
    cases fate <;> simp <;> omega

/-- The marks of judged definitions: the accepted ones are the members. -/
def Judged.choice (judged : Judged) : Choice := judged.map fun p => (p.1, p.2 = .accepted)

theorem Judged.map_fst_choice (judged : Judged) :
    judged.choice.map (·.1) = judged.map (·.1) := by
  simp [Judged.choice]

theorem Judged.members_choice (judged : Judged) :
    Choice.members judged.choice = judged.accepted := by
  induction judged with
  | nil => rfl
  | cons p judged ih =>
    obtain ⟨d, fate⟩ := p
    by_cases h : fate = .accepted <;>
      simpa [Judged.choice, Choice.members, Judged.accepted, h] using ih

/-- Accepting by fate is a choice where the first wins. -/
theorem firstWins_judgeFrom (ds : List PrimarySymbol) :
    Choice.FirstWins (Judged.choice (judgeFrom [] ds)) := by
  intro before d isMember after h
  obtain ⟨b, rest, hb, rfl, hrest⟩ := List.map_eq_append_iff.1 h
  obtain ⟨⟨d', fate⟩, a, rfl, hp, -⟩ := List.map_eq_cons_iff.1 hrest
  obtain ⟨rfl, rfl⟩ := Prod.mk.inj hp
  have hf : fate = judge (Judged.accepted b) d' := by simpa using fate_of_judgeFrom hb
  have hm : Choice.members (b.map fun p => (p.1, decide (p.2 = .accepted))) = Judged.accepted b :=
    Judged.members_choice b
  rw [hm, decide_eq_true_iff, hf, judge_eq_accepted_iff]

/-- A choice where the first wins is determined by its elements: at the first mark where two such
choices differed, the members before would be the same. -/
theorem Choice.FirstWins.unique {c c' : Choice} (h : c.FirstWins) (h' : c'.FirstWins)
    (he : c.map (·.1) = c'.map (·.1)) : c = c' := by
  -- induction on what is left, with the same elements chosen before it
  have key : ∀ (before rest rest' : Choice), c = before ++ rest → c' = before ++ rest' →
      rest.map (·.1) = rest'.map (·.1) → rest = rest' := by
    intro before rest
    induction rest generalizing before with
    | nil =>
      intro rest' _ _ hmap
      simpa using hmap.symm
    | cons p rest ih =>
      intro rest' hc hc' hmap
      cases rest' with
      | nil => simp at hmap
      | cons p' rest' =>
        obtain ⟨d, b⟩ := p
        obtain ⟨d', b'⟩ := p'
        simp only [List.map_cons, List.cons.injEq] at hmap
        obtain ⟨rfl, hmap⟩ := hmap
        -- both marks say the same of the same members before
        have hb : b = b' :=
          Bool.eq_iff_iff.2 ((h before d b rest hc).trans (h' before d b' rest' hc').symm)
        subst hb
        rw [ih (before ++ [(d, b)]) rest' (by simp [hc]) (by simp [hc']) hmap]
  exact key [] c c' rfl rfl he

/-! ## The parts of a table -/

/-- The tally with one more definition of the given fate. -/
def Tally.add (y : Tally) : Fate → Tally
  | .sameCode => { y with aliases := y.aliases + 1 }
  | .deprecated => { y with deprecated := y.deprecated + 1 }
  | .sameName => { y with duplicateNames := y.duplicateNames + 1 }
  | .accepted => y

namespace PrimaryTable

/-- The table after the next definition, wherever it stands in the file. -/
def take (t : PrimaryTable) (d : PrimarySymbol) : PrimaryTable := (t.offer ⟨0, d⟩).1

/-- The table of a sequence of definitions. -/
def ofDefinitions (ds : List PrimarySymbol) : PrimaryTable := ds.foldl take empty

/-- The line of a definition is for the report only. -/
theorem offer_fst (t : PrimaryTable) (d : Numbered PrimarySymbol) :
    (t.offer d).1 = t.take d.content := by
  simp only [take, offer]
  split
  · rfl
  · split
    · rfl
    · split <;> rfl

theorem offerAll_fst (t : PrimaryTable) (ds : List (Numbered PrimarySymbol)) :
    (t.offerAll ds).1 = (ds.map (·.content)).foldl take t := by
  induction ds generalizing t with
  | nil => rfl
  | cons d ds ih =>
    show ((t.offer d).1.offerAll ds).1 = _
    rw [ih, offer_fst]
    rfl

/-- The five parts of a table agree: codes, spellings and positions are those of the accepted
symbols, a position belongs to the first symbol that declares it, and the symbols are apart from
one another. -/
structure Consistent (t : PrimaryTable) : Prop where
  hasCode_iff : ∀ code, t.hasCode code = true ↔ ∃ s ∈ t.symbols, s.code = code
  caseIndex_eq : t.caseIndex = .ofNames (t.symbols.map (·.name))
  unicodeIndex_eq : ∀ position, t.unicodeIndex.get? position =
    (t.symbols.find? (·.declares position)).map (·.name)
  names_nodup : (t.symbols.map (·.name)).Nodup
  codes_nodup : (t.symbols.map (·.code)).Nodup
  not_deprecated : ∀ s ∈ t.symbols, s.deprecated = false

theorem consistent_empty : empty.Consistent where
  hasCode_iff code := by
    show (none : Option Unit).isSome = true ↔ _
    simp [empty]
  caseIndex_eq := rfl
  unicodeIndex_eq _ := rfl
  names_nodup := List.nodup_nil
  codes_nodup := List.nodup_nil
  not_deprecated := by simp [empty]

theorem contains_iff {t : PrimaryTable} {name : String} :
    t.contains name = true ↔ ∃ s ∈ t.symbols, s.name = name := by
  simp [contains, get?, List.find?_isSome]

/-- One more symbol, with another name or code than those before it, keeps them different. -/
theorem nodup_map_append_singleton {α : Type} {f : PrimarySymbol → α} {symbols : List PrimarySymbol}
    {d : PrimarySymbol} (h : (symbols.map f).Nodup) (hne : ∀ s ∈ symbols, f s ≠ f d) :
    ((symbols ++ [d]).map f).Nodup := by
  rw [List.map_append, List.map_singleton, List.nodup_append]
  refine ⟨h, List.nodup_singleton _, ?_⟩
  intro a ha b hb
  obtain ⟨s, hs, rfl⟩ := List.mem_map.1 ha
  rw [List.mem_singleton.1 hb]
  exact hne s hs

namespace Consistent

variable {t : PrimaryTable}

/-- A definition does to the table what its fate says. -/
theorem take_eq (h : t.Consistent) (d : PrimarySymbol) :
    t.take d = if judge t.symbols d = .accepted then (t.accept d).1
      else { t with tally := t.tally.add (judge t.symbols d) } := by
  simp only [take, offer, judge, h.hasCode_iff, contains_iff]
  split
  · simp [Tally.add]
  · split
    · simp [Tally.add]
    · split
      · simp [Tally.add]
      · simp

/-- A symbol more in the index of positions: it holds a position that it declares if no earlier
symbol does. -/
theorem declare_get? (h : t.Consistent) (d : PrimarySymbol) (position : UInt32) :
    (declare t.unicodeIndex d).1.get? position =
      ((t.symbols ++ [d]).find? (·.declares position)).map (·.name) := by
  rw [List.find?_append]
  cases hu : d.unicode with
  | none =>
    have hd : [d].find? (·.declares position) = none := by simp [PrimarySymbol.declares, hu]
    simp [declare, hu, hd, h.unicodeIndex_eq]
  | some u =>
    by_cases hp : u.position = position
    · subst hp
      have hd : [d].find? (·.declares u.position) = some d := by
        simp [PrimarySymbol.declares, hu]
      cases hold : t.unicodeIndex.get? u.position with
      | none =>
        -- the position is free, so no earlier symbol declares it
        have hnone : t.symbols.find? (·.declares u.position) = none := by
          simpa [hold] using (h.unicodeIndex_eq u.position).symm
        have hfree : t.unicodeIndex.byPosition.get? u.position = none := hold
        simp [declare, hu, hnone, hd, UnicodeIndex.insert, SortedMap.contains, hfree,
          UnicodeIndex.get?, SortedMap.get?_insert]
      | some holder =>
        -- an earlier symbol holds the position and keeps it
        obtain ⟨s, hs, hn⟩ := Option.map_eq_some_iff.1 ((h.unicodeIndex_eq _).symm.trans hold)
        simp [declare, hu, hold, hs, hn]
    -- another position is answered as before
    · have hd : [d].find? (·.declares position) = none := by
        simp [PrimarySymbol.declares, hu, hp]
      rw [hd, Option.or_none, ← h.unicodeIndex_eq]
      simp only [declare, hu]
      cases hold : t.unicodeIndex.get? u.position with
      | none =>
        have hfree : t.unicodeIndex.byPosition.get? u.position = none := hold
        simp [UnicodeIndex.insert, SortedMap.contains, hfree, UnicodeIndex.get?,
          SortedMap.get?_insert, Ne.symm hp]
      | some holder => rfl

/-- An accepted symbol keeps the parts of the table in step. -/
theorem accept (h : t.Consistent) {d : PrimarySymbol} (hd : judge t.symbols d = .accepted) :
    (t.accept d).1.Consistent := by
  obtain ⟨hdep, hall⟩ := judge_eq_accepted_iff.1 hd
  constructor
  · intro code
    show (t.codes.insert d.code.code ()).contains code.code = true ↔
      ∃ s ∈ t.symbols ++ [d], s.code = code
    have hold := h.hasCode_iff code
    rw [SortedMap.contains_insert]
    constructor
    · rintro (hc | hc)
      · exact ⟨d, by simp, (congrArg Keysym.mk hc).symm⟩
      · obtain ⟨s, hs, e⟩ := hold.1 hc
        exact ⟨s, by simp [hs], e⟩
    · rintro ⟨s, hs, rfl⟩
      rcases List.mem_append.1 hs with hs | hs
      · exact .inr (hold.2 ⟨s, hs, rfl⟩)
      · exact .inl (by rw [List.mem_singleton.1 hs])
  · show t.caseIndex.record d.name = .ofNames ((t.symbols ++ [d]).map (·.name))
    rw [h.caseIndex_eq, List.map_append, List.map_singleton, CaseIndex.ofNames_append_singleton]
  · exact h.declare_get? d
  · exact nodup_map_append_singleton h.names_nodup fun s hs => (hall s hs).2
  · exact nodup_map_append_singleton h.codes_nodup fun s hs => (hall s hs).1
  · intro s hs
    rcases List.mem_append.1 hs with hs | hs
    · exact h.not_deprecated s hs
    · rw [List.mem_singleton.1 hs]
      exact hdep

/-- Every definition keeps the parts of the table in step. -/
theorem take (h : t.Consistent) (d : PrimarySymbol) : (t.take d).Consistent := by
  rw [h.take_eq]
  split
  · rename_i hd
    exact h.accept hd
  · exact ⟨h.hasCode_iff, h.caseIndex_eq, h.unicodeIndex_eq, h.names_nodup, h.codes_nodup,
      h.not_deprecated⟩

theorem foldl_take (h : t.Consistent) (ds : List PrimarySymbol) :
    (ds.foldl PrimaryTable.take t).Consistent := by
  induction ds generalizing t with
  | nil => exact h
  | cons d ds ih => exact ih (h.take d)

end Consistent

/-! ## The table of a sequence of definitions -/

theorem consistent_ofDefinitions (ds : List PrimarySymbol) : (ofDefinitions ds).Consistent :=
  consistent_empty.foldl_take ds

/-- The symbols accepted from further definitions come behind those accepted before. -/
theorem symbols_foldl_take {t : PrimaryTable} (h : t.Consistent) (ds : List PrimarySymbol) :
    (ds.foldl take t).symbols = t.symbols ++ Judged.accepted (judgeFrom t.symbols ds) := by
  induction ds generalizing t with
  | nil => simp [judgeFrom, Judged.accepted]
  | cons d ds ih =>
    rw [List.foldl_cons, ih (h.take d), h.take_eq]
    by_cases hd : judge t.symbols d = .accepted
    · simp [judgeFrom, Judged.accepted, hd, PrimaryTable.accept]
    · simp [judgeFrom, Judged.accepted, hd]

theorem symbols_ofDefinitions (ds : List PrimarySymbol) :
    (ofDefinitions ds).symbols = Judged.accepted (judgeFrom [] ds) :=
  symbols_foldl_take consistent_empty ds

/-- Each definition that is not accepted is counted under its fate. -/
theorem tally_foldl_take {t : PrimaryTable} (h : t.Consistent) (ds : List PrimarySymbol) :
    (ds.foldl take t).tally =
      ⟨t.tally.aliases + ((judgeFrom t.symbols ds).map (·.2)).count .sameCode,
        t.tally.deprecated + ((judgeFrom t.symbols ds).map (·.2)).count .deprecated,
        t.tally.duplicateNames + ((judgeFrom t.symbols ds).map (·.2)).count .sameName⟩ := by
  induction ds generalizing t with
  | nil => rfl
  | cons d ds ih =>
    rw [List.foldl_cons, ih (h.take d), h.take_eq]
    cases hd : judge t.symbols d with
    | accepted => simp [judgeFrom, hd, PrimaryTable.accept]
    | sameCode =>
      simp [judgeFrom, hd, Tally.add]
      omega
    | deprecated =>
      simp [judgeFrom, hd, Tally.add]
      omega
    | sameName =>
      simp [judgeFrom, hd, Tally.add]
      omega

theorem tally_ofDefinitions (ds : List PrimarySymbol) :
    (ofDefinitions ds).tally =
      ⟨((judgeFrom [] ds).map (·.2)).count .sameCode,
        ((judgeFrom [] ds).map (·.2)).count .deprecated,
        ((judgeFrom [] ds).map (·.2)).count .sameName⟩ := by
  show (ds.foldl take empty).tally = _
  rw [tally_foldl_take consistent_empty]
  simp [empty]

/-- Two tables that differ in their tallies at most. -/
structure SameContent (t u : PrimaryTable) : Prop where
  symbols : t.symbols = u.symbols
  codes : t.codes = u.codes
  caseIndex : t.caseIndex = u.caseIndex
  unicodeIndex : t.unicodeIndex = u.unicodeIndex

theorem SameContent.refl (t : PrimaryTable) : t.SameContent t := ⟨rfl, rfl, rfl, rfl⟩

theorem SameContent.symm {t u : PrimaryTable} (h : t.SameContent u) : u.SameContent t :=
  ⟨h.symbols.symm, h.codes.symm, h.caseIndex.symm, h.unicodeIndex.symm⟩

theorem SameContent.trans {t u v : PrimaryTable} (h : t.SameContent u) (h' : u.SameContent v) :
    t.SameContent v :=
  ⟨h.symbols.trans h'.symbols, h.codes.trans h'.codes, h.caseIndex.trans h'.caseIndex,
    h.unicodeIndex.trans h'.unicodeIndex⟩

/-- The next definition is taken in the same way whatever the tally says. -/
theorem SameContent.take {t u : PrimaryTable} (h : t.SameContent u) (d : PrimarySymbol) :
    (t.take d).SameContent (u.take d) := by
  obtain ⟨symbols, codes, caseIndex, unicodeIndex, tally⟩ := t
  obtain ⟨symbols', codes', caseIndex', unicodeIndex', tally'⟩ := u
  obtain ⟨rfl, rfl, rfl, rfl⟩ := h
  simp only [PrimaryTable.take, offer, hasCode, contains, get?]
  split
  · exact ⟨rfl, rfl, rfl, rfl⟩
  · split
    · exact ⟨rfl, rfl, rfl, rfl⟩
    · split
      · exact ⟨rfl, rfl, rfl, rfl⟩
      · exact ⟨rfl, rfl, rfl, rfl⟩

theorem SameContent.foldl_take {t u : PrimaryTable} (h : t.SameContent u)
    (ds : List PrimarySymbol) :
    (ds.foldl PrimaryTable.take t).SameContent (ds.foldl PrimaryTable.take u) := by
  induction ds generalizing t u with
  | nil => exact h
  | cons d ds ih => exact ih (h.take d)

/-- A definition that is not accepted leaves a trace in the tally only. -/
theorem Consistent.sameContent_take {t : PrimaryTable} (h : t.Consistent) {d : PrimarySymbol}
    (hd : judge t.symbols d ≠ .accepted) : t.SameContent (t.take d) := by
  rw [h.take_eq, if_neg hd]
  exact ⟨rfl, rfl, rfl, rfl⟩

/-- Without a definition that is not accepted, the table is the same but for its tally. -/
theorem sameContent_of_dropped {before after : List PrimarySymbol} {d : PrimarySymbol}
    (hd : judge (ofDefinitions before).symbols d ≠ .accepted) :
    (ofDefinitions (before ++ after)).SameContent (ofDefinitions (before ++ d :: after)) := by
  unfold ofDefinitions at hd ⊢
  rw [List.foldl_append, List.foldl_append, List.foldl_cons]
  exact ((consistent_ofDefinitions before).sameContent_take hd).foldl_take after

/-- An accepted name is the one spelling of its form, or its form has several spellings. -/
theorem Consistent.lookup_xor_isNonUnique {t : PrimaryTable} (h : t.Consistent)
    {s : PrimarySymbol} (hs : s ∈ t.symbols) :
    Xor (t.caseIndex.lookup s.name = some s.name) (t.caseIndex.isNonUnique s.name = true) := by
  rw [h.caseIndex_eq, CaseIndex.lookup_ofNames_iff, CaseIndex.isNonUnique_ofNames_iff]
  have hmem : s.name ∈ t.symbols.map (·.name) := List.mem_map_of_mem hs
  rcases CaseIndex.only_or_several hmem rfl with ho | hs
  · exact .inl ⟨ho, ho.not_several⟩
  · exact .inr ⟨hs, fun ho => ho.not_several hs⟩

/-! ## The table of a text -/

end PrimaryTable

/-- What a line defines, if it is a definition. -/
def foundOn {α : Type} (read : Numbered (List Char) → Except HeaderError (Option α))
    (l : Numbered (List Char)) : Option α :=
  match read l with
  | .ok found => found
  | .error _ => none

theorem foundOn_eq_some_iff {α : Type} {read : Numbered (List Char) → Except HeaderError (Option α)}
    {l : Numbered (List Char)} {a : α} : foundOn read l = some a ↔ read l = .ok (some a) := by
  unfold foundOn
  cases read l with
  | error e => simp
  | ok found => simp

/-- A scan without an error finds what the lines say one by one. -/
theorem scan_found_of_failure_eq_none {α : Type}
    {read : Numbered (List Char) → Except HeaderError (Option α)}
    {ls : List (Numbered (List Char))} (h : (scan read ls).failure = none) :
    (scan read ls).found.map (·.content) = ls.filterMap (foundOn read) := by
  induction ls with
  | nil => rfl
  | cons l ls ih =>
    simp only [scan] at h ⊢
    cases hr : read l with
    | error e => simp [hr] at h
    | ok found =>
      cases found with
      | none =>
        simp only [hr] at h
        simp [foundOn, hr, ih h]
      | some a =>
        simp only [hr] at h
        simp [foundOn, hr, ih h]

/-- A scan has no error if no line is one. -/
theorem scan_failure_eq_none_iff {α : Type}
    {read : Numbered (List Char) → Except HeaderError (Option α)}
    {ls : List (Numbered (List Char))} :
    (scan read ls).failure = none ↔ ∀ l ∈ ls, (read l).toOption ≠ none := by
  induction ls with
  | nil => simp [scan]
  | cons l ls ih =>
    rw [List.forall_mem_cons, ← ih, scan]
    cases hr : read l with
    | error e => simp [Except.toOption]
    | ok found => cases found <;> simp [Except.toOption]

namespace PrimaryTable

/-- The definitions of a text, in the order of their lines. -/
def definitionLines (source : String) : List PrimarySymbol :=
  (numberedLines source).filterMap (foundOn PrimarySymbol.ofLine)

/-- A text without a faulty line gives the table of its definitions, and only such a text gives a
table. -/
theorem ofText_outcome_eq_ok_iff {source : String} {t : PrimaryTable} :
    (ofText source).outcome = .ok t ↔
      (definitions source).failure = none ∧ t = ofDefinitions (definitionLines source) := by
  have hfound : (definitions source).failure = none →
      (empty.offerAll (definitions source).found).1 = ofDefinitions (definitionLines source) := by
    intro h
    rw [offerAll_fst, definitions, scan_found_of_failure_eq_none h]
    rfl
  simp only [ofText]
  cases hf : (definitions source).failure with
  | some e => simp
  | none =>
    simp only [true_and, Except.ok.injEq]
    rw [hfound hf]
    exact eq_comm

/-- The table `t` accepts, of the definitions `ds`, the first ones, and `judged` says why. -/
structure AcceptsFirst (ds : List PrimarySymbol) (judged : Judged) (t : PrimaryTable) : Prop where
  definitions_eq : judged.map (·.1) = ds
  /-- The accepted symbols are the members of the only choice where the first wins. -/
  symbols_eq : t.symbols = Choice.members judged.choice
  firstWins : Choice.FirstWins judged.choice
  unique : ∀ c : Choice, c.map (·.1) = ds → c.FirstWins → c = judged.choice
  names_nodup : (t.symbols.map (·.name)).Nodup
  codes_nodup : (t.symbols.map (·.code)).Nodup
  /-- Codes, spellings and positions are those of the accepted symbols. -/
  consistent : t.Consistent
  /-- A dropped definition reserves nothing: without it the table is the same but for the tally. -/
  sameContent : ∀ before d fate after, judged = before ++ (d, fate) :: after → fate ≠ .accepted →
    (ofDefinitions (before.map (·.1) ++ after.map (·.1))).SameContent t
  lookup_xor_isNonUnique : ∀ s ∈ t.symbols,
    Xor (t.caseIndex.lookup s.name = some s.name) (t.caseIndex.isNonUnique s.name = true)
  /-- Each definition is judged against the ones accepted before it, and counted under its fate. -/
  fate_eq : ∀ before d fate after, judged = before ++ (d, fate) :: after →
    fate = judge (Judged.accepted before) d
  tally_eq : t.tally = ⟨(judged.map (·.2)).count .sameCode, (judged.map (·.2)).count .deprecated,
    (judged.map (·.2)).count .sameName⟩
  total_eq : t.size + t.tally.aliases + t.tally.deprecated + t.tally.duplicateNames = ds.length

/-- The table of a sequence of definitions accepts the first ones. -/
theorem acceptsFirst_ofDefinitions (ds : List PrimarySymbol) :
    AcceptsFirst ds (judgeFrom [] ds) (ofDefinitions ds) := by
  have hc := consistent_ofDefinitions ds
  refine ⟨map_fst_judgeFrom [] ds, ?_, firstWins_judgeFrom ds, ?_, hc.names_nodup,
    hc.codes_nodup, hc, ?_, fun s hs => hc.lookup_xor_isNonUnique hs, ?_,
    tally_ofDefinitions ds, ?_⟩
  · rw [symbols_ofDefinitions, Judged.members_choice]
  · intro c hmap hfirst
    apply hfirst.unique (firstWins_judgeFrom ds)
    rw [hmap, Judged.map_fst_choice, map_fst_judgeFrom]
  · intro before d fate after hj hfate
    have hds : ds = before.map (·.1) ++ d :: after.map (·.1) := by
      rw [← map_fst_judgeFrom [] ds, hj]
      simp
    -- the definition was judged against what the definitions before it give
    have hbefore : (ofDefinitions (before.map (·.1))).symbols = Judged.accepted before := by
      rw [symbols_ofDefinitions, judgeFrom_map_fst hj]
    rw [hds]
    apply sameContent_of_dropped
    rw [hbefore]
    rwa [fate_of_judgeFrom hj] at hfate
  · intro before d fate after hj
    simpa using fate_of_judgeFrom hj
  · have hlen : ((judgeFrom [] ds).map (·.2)).length = ds.length := by
      rw [List.length_map, ← List.length_map (·.1), map_fst_judgeFrom]
    have hsize : (ofDefinitions ds).size = ((judgeFrom [] ds).map (·.2)).count .accepted := by
      rw [size, symbols_ofDefinitions, Judged.accepted, List.length_map, List.count_eq_countP,
        List.countP_map, List.countP_eq_length_filter]
      rfl
    rw [tally_ofDefinitions, hsize, ← hlen]
    exact count_fates _

/-- A text that parses is read as the table that accepts the first of its definitions. -/
theorem ofText_acceptsFirst {source : String} {t : PrimaryTable}
    (h : (ofText source).outcome = .ok t) :
    ∃ judged, AcceptsFirst (definitionLines source) judged t := by
  obtain ⟨-, rfl⟩ := ofText_outcome_eq_ok_iff.1 h
  exact ⟨_, acceptsFirst_ofDefinitions _⟩

/-- A header whose definitions meet all four fates: `b` has the code of `a` although it is
deprecated, `c` is deprecated, and the second `a` has a new code. -/
def mixedHeader : String :=
  "#define XK_a 0x0061  /* U+0061 LATIN SMALL LETTER A */\n#define XK_b 0x0061  /*(old)*/\n" ++
    "#define XK_c 0x0063  /* (U+0043) */\n#define XK_a 0x0064\n#define XK_A 0x0063\n"

/-- The table of the definitions of `mixedHeader`. -/
def mixedTable : PrimaryTable := ofDefinitions (definitionLines mixedHeader)

theorem ofText_mixedHeader : (ofText mixedHeader).outcome = .ok mixedTable :=
  ofText_outcome_eq_ok_iff.2 ⟨by decide +kernel, rfl⟩

theorem ofText_acceptsFirst_mixedHeader :
    (ofText mixedHeader).outcome = .ok mixedTable ∧
      ∃ judged, AcceptsFirst (definitionLines mixedHeader) judged mixedTable :=
  ⟨ofText_mixedHeader, ofText_acceptsFirst ofText_mixedHeader⟩

/-- Two of its five definitions are accepted. -/
example : mixedTable.symbols.map (·.name) = ["a", "A"] := by
  decide +kernel

end PrimaryTable

end KeyDispatch
