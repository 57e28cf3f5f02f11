import KeyDispatch.Resolver
import KeyDispatch.Proofs.FirstWins

/-!
# Resolution by scanning

`NaiveResolver` knows the accepted symbols as a list and nothing else of them: for every key it
scans the list for the spellings of the key's name. The resolver with its indices gives the same
base resolution for every key (`resolveBase_eq_naive`) and the same table or error for every toolkit
table (`resolve_outcome_eq_naive`).
-/

namespace KeyDispatch

open Text (lowercase uppercase)

/-- The accepted symbols, without indices, and what else keys are resolved against. -/
structure NaiveResolver where
  accepted : List PrimarySymbol
  vendor : VendorTable
  overrides : Overrides

namespace NaiveResolver

/-- The code of the accepted symbol of a name. -/
def code? (r : NaiveResolver) (name : String) : Option Keysym :=
  (r.accepted.find? fun s => s.name == name).map (·.code)

/-- The accepted symbols whose names have the key's lowercase form. -/
def spellings (r : NaiveResolver) (key : String) : List PrimarySymbol :=
  r.accepted.filter fun s => lowercase s.name = lowercase key

/-- The resolution of a key by its name, or why it has none. -/
def base (r : NaiveResolver) (key : String) : Except Diagnostic Resolution :=
  match r.spellings key with
  | [s] => .ok (.fixed s.code)
  | several =>
    match r.code? key with
    | some exact =>
      match r.code? (lowercase key), r.code? (uppercase key) with
      | some lower, some upper => .ok (.shift lower upper)
      | some lower, none => .ok (.fixed lower)
      | none, _ => .ok (.fixed exact)
    | none =>
      match (r.overrides.alternative? key).bind r.code?, r.vendor.code? key,
          (r.overrides.alternative? key).bind r.vendor.code? with
      | some code, _, _ => .ok (.fixed code)
      | none, some code, _ => .ok (.fixed code)
      | none, none, some code => .ok (.fixed code)
      | none, none, none => .error (if several = [] then .noMatch key else .caseMismatch key)

/-- The resolution with the key's keypad keysym, which must be accepted and which a resolution by
Shift passes over. -/
def withKeypad (r : NaiveResolver) (key : String) (base : Resolution) :
    Except ResolveError Resolution :=
  match r.overrides.keypad? key with
  | none => .ok base
  | some symbol =>
    match r.code? symbol, base with
    | none, _ => .error (.unknownKeypadSymbol key symbol)
    | some onKeypad, .fixed plain => .ok (.keypad plain onKeypad)
    | some _, other => .ok other

/-- What becomes of one key. -/
def resolveKey (r : NaiveResolver) (key : String × UInt32) : Except ResolveError KeyOutcome :=
  if r.overrides.isIgnored key.1 then .ok .ignored
  else
    match r.base key.1 with
    | .error diagnostic => .ok (.unresolved diagnostic)
    | .ok base => do
      let resolution ← r.withKeypad key.1 base
      return .resolved ⟨key.1, key.2, resolution⟩

/-- The keysyms of characters: of several symbols that declare a position, the first counts. -/
def textCases (r : NaiveResolver) : SortedMap UInt32 Keysym :=
  r.accepted.foldr (fun s text =>
    match s.unicode with
    | some unicode => text.insert unicode.position s.code
    | none => text) .empty

/-- The decision table for every key of a toolkit table. -/
def resolve (r : NaiveResolver) (toolkit : ToolkitTable) : Except ResolveError DecisionTable := do
  let outcomes ← toolkit.toList.mapM r.resolveKey
  let (entries, unswapped) := Resolver.exchange r.overrides.swap (outcomes.filterMap (·.entryOf?))
  return ⟨r.textCases, entries.toArray,
    outcomes.filterMap (·.diagnosticOf?) ++ unswapped.toList⟩

/-- A position has the code of the first symbol that declares it. -/
theorem textCases_get? (r : NaiveResolver) (position : UInt32) :
    r.textCases.get? position = (r.accepted.find? (·.declares position)).map (·.code) := by
  unfold textCases
  induction r.accepted with
  | nil => rfl
  | cons s rest ih =>
    rw [List.foldr_cons, List.find?_cons]
    cases hu : s.unicode with
    | none =>
      have hd : s.declares position = false := by simp [PrimarySymbol.declares, hu]
      rw [hd]
      exact ih
    | some unicode =>
      simp only
      rw [SortedMap.get?_insert]
      by_cases hp : position = unicode.position
      · have hd : s.declares position = true := by simp [PrimarySymbol.declares, hu, hp]
        rw [if_pos hp, hd]
        rfl
      · have hd : s.declares position = false := by
          simp [PrimarySymbol.declares, hu, Ne.symm hp]
        rw [if_neg hp, hd]
        exact ih

end NaiveResolver

namespace PrimaryTable.Consistent

variable {t : PrimaryTable}

/-- An accepted symbol is found under its name. -/
theorem get?_of_mem (h : t.Consistent) {s : PrimarySymbol} (hs : s ∈ t.symbols) :
    t.get? s.name = some s := by
  cases hg : t.get? s.name with
  | none =>
    have := List.find?_eq_none.1 hg s hs
    simp at this
  | some s' =>
    have hs' : s' ∈ t.symbols := List.mem_of_find?_eq_some hg
    have hn : s'.name = s.name := by simpa using List.find?_some hg
    rw [List.inj_on_of_nodup_map h.names_nodup hs' hs hn]

theorem code?_of_mem (h : t.Consistent) {s : PrimarySymbol} (hs : s ∈ t.symbols) :
    t.code? s.name = some s.code := by
  rw [code?, h.get?_of_mem hs]
  rfl

end PrimaryTable.Consistent

namespace Resolver

/-- The same tables without indices. -/
def naive (r : Resolver) : NaiveResolver := ⟨r.primary.symbols, r.vendor, r.overrides⟩

section Spellings

variable {r : Resolver} {key : String}

theorem mem_spellings {s : PrimarySymbol} :
    s ∈ r.naive.spellings key ↔ s ∈ r.primary.symbols ∧ lowercase s.name = lowercase key := by
  simp [naive, NaiveResolver.spellings]

/-- A name without spellings is unknown to the index and to the table. -/
theorem of_spellings_eq_nil (h : r.primary.Consistent) (hs : r.naive.spellings key = []) :
    r.uniqueSpelling? key = none ∧ r.primary.caseIndex.isNonUnique key = false ∧
      r.primary.code? key = none := by
  have hnone : ∀ s ∈ r.primary.symbols, lowercase s.name ≠ lowercase key := by
    intro s hmem hf
    have := mem_spellings.2 ⟨hmem, hf⟩
    rw [hs] at this
    cases this
  refine ⟨?_, ?_, ?_⟩
  · cases hl : r.primary.caseIndex.lookup key with
    | none => simp [uniqueSpelling?, hl]
    | some name =>
      rw [h.caseIndex_eq, CaseIndex.lookup_ofNames_iff] at hl
      obtain ⟨s, hmem, rfl⟩ := List.mem_map.1 hl.1
      exact absurd hl.2.1 (hnone s hmem)
  · rw [Bool.eq_false_iff, h.caseIndex_eq, Ne, CaseIndex.isNonUnique_ofNames_iff]
    rintro ⟨a, ha, -, -, hfa, -, -⟩
    obtain ⟨s, hmem, rfl⟩ := List.mem_map.1 ha
    exact hnone s hmem hfa
  · cases hg : r.primary.get? key with
    | none => simp [PrimaryTable.code?, hg]
    | some s =>
      have hn : s.name = key := by simpa using List.find?_some hg
      exact absurd (congrArg lowercase hn) (hnone s (List.mem_of_find?_eq_some hg))

/-- The only spelling of a name is what the index answers. -/
theorem uniqueSpelling?_of_spellings (h : r.primary.Consistent) {s : PrimarySymbol}
    (hs : r.naive.spellings key = [s]) : r.uniqueSpelling? key = some s.code := by
  obtain ⟨hmem, hf⟩ := mem_spellings.1 (hs ▸ List.mem_singleton_self s : s ∈ r.naive.spellings key)
  have honly : CaseIndex.Only (r.primary.symbols.map (·.name)) (lowercase key) s.name := by
    refine ⟨List.mem_map_of_mem hmem, hf, ?_⟩
    intro other ho hof
    obtain ⟨s', hmem', rfl⟩ := List.mem_map.1 ho
    have hs' := mem_spellings.2 ⟨hmem', hof⟩
    rw [hs, List.mem_singleton] at hs'
    rw [hs']
  have hl : r.primary.caseIndex.lookup key = some s.name := by
    rw [h.caseIndex_eq, CaseIndex.lookup_ofNames_iff]
    exact honly
  rw [uniqueSpelling?, hl]
  exact h.code?_of_mem hmem

/-- Two spellings of a name make it not unique. -/
theorem of_spellings_eq_cons_cons (h : r.primary.Consistent) {a b : PrimarySymbol}
    {rest : List PrimarySymbol} (hs : r.naive.spellings key = a :: b :: rest) :
    r.uniqueSpelling? key = none ∧ r.primary.caseIndex.isNonUnique key = true := by
  have hsub : ((a :: b :: rest).map (·.name)).Sublist (r.primary.symbols.map (·.name)) := by
    rw [← hs]
    exact List.filter_sublist.map _
  have hab : a.name ≠ b.name := by
    have hnodup := hsub.nodup h.names_nodup
    simp only [List.map_cons, List.nodup_cons, List.mem_cons, not_or] at hnodup
    exact hnodup.1.1
  obtain ⟨hma, hfa⟩ := mem_spellings.1 (hs ▸ (by simp) : a ∈ r.naive.spellings key)
  obtain ⟨hmb, hfb⟩ := mem_spellings.1 (hs ▸ (by simp) : b ∈ r.naive.spellings key)
  have hseveral : CaseIndex.Several (r.primary.symbols.map (·.name)) (lowercase key) :=
    ⟨a.name, List.mem_map_of_mem hma, b.name, List.mem_map_of_mem hmb, hfa, hfb, hab⟩
  constructor
  · cases hl : r.primary.caseIndex.lookup key with
    | none => simp [uniqueSpelling?, hl]
    | some name =>
      rw [h.caseIndex_eq, CaseIndex.lookup_ofNames_iff] at hl
      exact absurd hseveral hl.not_several
  · rw [h.caseIndex_eq, CaseIndex.isNonUnique_ofNames_iff]
    exact hseveral

end Spellings

/-- A base resolution or its failure as the outcome of a key. -/
def outcomeOfBase : Except Diagnostic Resolution → BaseOutcome
  | .ok base => .resolved base
  | .error diagnostic => .unresolved diagnostic

/-- A key that no spelling helps: the three substitutes in their order, or the diagnostic. -/
theorem unresolved_or_substitute (r : Resolver) (key : String) (diagnostic : Diagnostic) :
    (match r.substitute? key with
      | some code => (.ok (.resolved (.fixed code)) : Except ResolveError BaseOutcome)
      | none => .ok (.unresolved diagnostic)) =
    .ok (outcomeOfBase
      (match (r.naive.overrides.alternative? key).bind r.naive.code?, r.naive.vendor.code? key,
          (r.naive.overrides.alternative? key).bind r.naive.vendor.code? with
        | some code, _, _ => .ok (.fixed code)
        | none, some code, _ => .ok (.fixed code)
        | none, none, some code => .ok (.fixed code)
        | none, none, none => .error diagnostic)) := by
  have hsub : r.substitute? key = ((r.naive.overrides.alternative? key).bind r.naive.code?).or
      ((r.naive.vendor.code? key).or
        ((r.naive.overrides.alternative? key).bind r.naive.vendor.code?)) := rfl
  rw [hsub]
  cases (r.naive.overrides.alternative? key).bind r.naive.code? with
  | some code => rfl
  | none =>
    cases r.naive.vendor.code? key with
    | some code => rfl
    | none =>
      cases (r.naive.overrides.alternative? key).bind r.naive.vendor.code? <;> rfl

/-- The rules for a key with the index and without. The index is asked for the only spelling and for
the mark, which the spellings found by scanning decide. -/
theorem resolveBase_eq_naive {r : Resolver} (h : r.primary.Consistent) {key : String}
    (hkey : r.overrides.isIgnored key = false) :
    r.resolveBase key = .ok (outcomeOfBase (r.naive.base key)) := by
  have hcode : ∀ name, r.naive.code? name = r.primary.code? name := fun _ => rfl
  unfold resolveBase NaiveResolver.base
  rw [hkey]
  cases hs : r.naive.spellings key with
  | nil =>
    -- no spelling: index and table know nothing of the key
    obtain ⟨hu, hn, hc⟩ := of_spellings_eq_nil h hs
    rw [hcode, hu, hc, hn]
    exact unresolved_or_substitute r key _
  | cons a rest =>
    cases rest with
    | nil =>
      -- one spelling: it is what the index answers
      rw [uniqueSpelling?_of_spellings h hs]
      rfl
    | cons b rest =>
      -- several: the index is silent but marks them, so an exact name is spelled both ways
      obtain ⟨hu, hn⟩ := of_spellings_eq_cons_cons h hs
      rw [hcode, hu, hn]
      cases hc : r.primary.code? key with
      | none => exact unresolved_or_substitute r key _
      | some exact =>
        simp only [spelled, hcode, if_true]
        cases r.primary.code? (lowercase key) <;> cases r.primary.code? (uppercase key) <;> rfl

theorem applyKeypad_outcome_eq_naive (r : Resolver) (key : String) (base : Resolution) :
    (r.applyKeypad key base).outcome = r.naive.withKeypad key base := by
  have hcode : ∀ name, r.naive.code? name = r.primary.code? name := fun _ => rfl
  have hover : r.naive.overrides = r.overrides := rfl
  unfold applyKeypad NaiveResolver.withKeypad
  rw [hover]
  cases r.overrides.keypad? key with
  | none => rfl
  | some symbol =>
    simp only [hcode]
    cases r.primary.code? symbol with
    | none => rfl
    | some onKeypad => cases base <;> rfl

theorem resolveKey_outcome_eq_naive {r : Resolver} (h : r.primary.Consistent)
    (key : String × UInt32) : (r.resolveKey key).outcome = r.naive.resolveKey key := by
  have hover : r.naive.overrides = r.overrides := rfl
  unfold resolveKey NaiveResolver.resolveKey
  rw [hover]
  by_cases hkey : r.overrides.isIgnored key.1 = true
  · rw [if_pos hkey, resolveBase, if_pos hkey]
    rfl
  · rw [if_neg hkey, resolveBase_eq_naive h (by simpa using hkey)]
    cases r.naive.base key.1 with
    | error diagnostic => rfl
    | ok base =>
      show (r.applyKeypad key.1 base >>= _).outcome = r.naive.withKeypad key.1 base >>= _
      rw [Logged.outcome_bind, applyKeypad_outcome_eq_naive]
      rfl

/-- All keys in order, by induction on the keys: each step is the step for one key. -/
theorem resolveKeys_outcome_eq_naive {r : Resolver} (h : r.primary.Consistent)
    (keys : List (String × UInt32)) :
    (r.resolveKeys keys).outcome = keys.mapM r.naive.resolveKey := by
  induction keys with
  | nil => rfl
  | cons key keys ih =>
    rw [List.mapM_cons, resolveKeys, Logged.outcome_bind, resolveKey_outcome_eq_naive h]
    apply bind_congr
    intro outcome
    rw [Logged.outcome_bind, ih]
    rfl

/-- The position of a symbol has the code of the first accepted symbol that declares it: the holder
of a position is accepted, so that no position is lost on the way to its code. -/
theorem textCases_get?_eq_find? {t : PrimaryTable} (h : t.Consistent) (position : UInt32) :
    (textCases t).get? position = (t.symbols.find? (·.declares position)).map (·.code) := by
  -- no position is twice in the index, so none is in the list of codes
  have hkeys : (t.unicodeIndex.toList.filterMap fun p =>
      (t.code? p.2).map fun code => (p.1, code)).Pairwise fun a b => a.1 ≠ b.1 := by
    refine List.Pairwise.filterMap _ ?_ t.unicodeIndex.byPosition.keys_ne
    intro a b hab c hc d hd
    obtain ⟨_, -, rfl⟩ := Option.map_eq_some_iff.1 hc
    obtain ⟨_, -, rfl⟩ := Option.map_eq_some_iff.1 hd
    exact hab
  ext1 code
  rw [textCases, SortedMap.get?_ofList_eq_some_iff hkeys, List.mem_filterMap]
  constructor
  · rintro ⟨⟨p, name⟩, hp, hc⟩
    obtain ⟨_, hc, he⟩ := Option.map_eq_some_iff.1 hc
    obtain ⟨rfl, rfl⟩ := Prod.mk.inj he
    have hget : t.unicodeIndex.get? p = some name := SortedMap.get?_eq_some_iff.2 hp
    obtain ⟨s, hs, rfl⟩ := Option.map_eq_some_iff.1 ((h.unicodeIndex_eq p).symm.trans hget)
    rw [h.code?_of_mem (List.mem_of_find?_eq_some hs)] at hc
    rw [hs]
    simpa using hc
  · intro hc
    obtain ⟨s, hs, rfl⟩ := Option.map_eq_some_iff.1 hc
    have hget : t.unicodeIndex.get? position = some s.name := by
      rw [h.unicodeIndex_eq, hs]
      rfl
    refine ⟨(position, s.name), SortedMap.get?_eq_some_iff.1 hget, ?_⟩
    simp [h.code?_of_mem (List.mem_of_find?_eq_some hs)]

theorem textCases_eq_naive {r : Resolver} (h : r.primary.Consistent) :
    textCases r.primary = r.naive.textCases :=
  SortedMap.ext_get? fun position => by
    rw [textCases_get?_eq_find? h, NaiveResolver.textCases_get?]
    rfl

/-- The resolver with its indices gives the table, or the error, that scanning gives. -/
theorem resolve_outcome_eq_naive {r : Resolver} (h : r.primary.Consistent)
    (toolkit : ToolkitTable) : (r.resolve toolkit).outcome = r.naive.resolve toolkit := by
  unfold resolve NaiveResolver.resolve
  rw [Logged.outcome_bind, resolveKeys_outcome_eq_naive h, textCases_eq_naive h]
  rfl

end Resolver

/-- Over the accepted symbols of any text that parses, any vendor table and any overrides, the
resolver with its indices gives every key that is not ignored the base resolution, or the
diagnostic, that scanning the accepted symbols gives it, and gives every toolkit table the decision
table, or the error, that follows from these. -/
theorem resolver_eq_naive {source : String} {primary : PrimaryTable}
    (hprimary : (PrimaryTable.ofText source).outcome = .ok primary) (vendor : VendorTable)
    (overrides : Overrides) :
    (∀ key, overrides.isIgnored key = false →
      (Resolver.mk primary vendor overrides).resolveBase key =
        .ok (Resolver.outcomeOfBase
          ((NaiveResolver.mk primary.symbols vendor overrides).base key))) ∧
    ∀ toolkit, ((Resolver.mk primary vendor overrides).resolve toolkit).outcome =
      (NaiveResolver.mk primary.symbols vendor overrides).resolve toolkit := by
  obtain ⟨-, rfl⟩ := PrimaryTable.ofText_outcome_eq_ok_iff.1 hprimary
  have h := PrimaryTable.consistent_ofDefinitions (PrimaryTable.definitionLines source)
  exact ⟨fun key hkey => Resolver.resolveBase_eq_naive (r := ⟨_, vendor, overrides⟩) h hkey,
    fun toolkit => Resolver.resolve_outcome_eq_naive (r := ⟨_, vendor, overrides⟩) h toolkit⟩

/-- With `a` and `A` accepted, the key `A` is a pair, and so is it in the table. -/
theorem resolver_eq_naive_mixedHeader :
    (PrimaryTable.ofText PrimaryTable.mixedHeader).outcome = .ok PrimaryTable.mixedTable ∧
      Overrides.empty.isIgnored "A" = false ∧
      (Resolver.mk PrimaryTable.mixedTable .empty .empty).resolveBase "A" =
        .ok (.resolved (.shift ⟨0x61⟩ ⟨0x63⟩)) ∧
      ((Resolver.mk PrimaryTable.mixedTable .empty .empty).resolve
          (.ofPairs [("A", 0x41), ("\u212a", 0x4b)])).outcome =
        (NaiveResolver.mk PrimaryTable.mixedTable.symbols .empty .empty).resolve
          (.ofPairs [("A", 0x41), ("\u212a", 0x4b)]) := by
  have h := resolver_eq_naive PrimaryTable.ofText_mixedHeader .empty .empty
  refine ⟨PrimaryTable.ofText_mixedHeader, rfl, ?_, h.2 _⟩
  rw [h.1 "A" rfl]
  decide +kernel

end KeyDispatch
