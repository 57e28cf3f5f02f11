import KeyDispatch.Proofs.KeyOutcomes
import KeyDispatch.Proofs.NaiveResolver
import KeyDispatch.Proofs.TableEntries

/-!
# When resolution fails

A key is broken if some rule gives it a keysym and its keypad keysym is not among the accepted
symbols (`NaiveResolver.BrokenKeypad`). Over the accepted symbols of a text, resolution fails
exactly if the toolkit lists a broken key, and the error names the first broken key
(`resolve_rejectsBrokenKeypad`); the check of the index of spellings never fails.
-/

namespace KeyDispatch

namespace NaiveResolver

variable {r : NaiveResolver} {key symbol : String}

/-- Some rule gives the key a keysym: its name has one accepted spelling or is accepted as it is,
the name to use instead is accepted, or the vendor defines the one or the other. -/
inductive HasBase (r : NaiveResolver) (key : String) : Prop where
  | onlySpelling {s : PrimarySymbol} (h : r.spellings key = [s])
  | exact {s : PrimarySymbol} (hs : s ∈ r.accepted) (hname : s.name = key)
  | alternative {name : String} (ha : r.overrides.alternative? key = some name) {s : PrimarySymbol}
      (hs : s ∈ r.accepted) (hname : s.name = name)
  | vendor {code : Keysym} (h : r.vendor.code? key = some code)
  | vendorAlternative {name : String} (ha : r.overrides.alternative? key = some name)
      {code : Keysym} (h : r.vendor.code? name = some code)

/-- The key has a keysym, and a keypad keysym that is not accepted. -/
structure BrokenKeypad (r : NaiveResolver) (key symbol : String) : Prop where
  not_ignored : r.overrides.isIgnored key = false
  hasBase : r.HasBase key
  keypad : r.overrides.keypad? key = some symbol
  not_accepted : ∀ s ∈ r.accepted, s.name ≠ symbol

theorem code?_eq_none_iff : r.code? key = none ↔ ∀ s ∈ r.accepted, s.name ≠ key := by
  simp [code?]

/-- No rule gives the key a keysym exactly if it is unknown under each of the names that the rules
try. -/
theorem not_hasBase_iff :
    ¬ r.HasBase key ↔
      (∀ s, r.spellings key ≠ [s]) ∧ r.code? key = none ∧
        (r.overrides.alternative? key).bind r.code? = none ∧ r.vendor.code? key = none ∧
        (r.overrides.alternative? key).bind r.vendor.code? = none := by
  simp only [Option.bind_eq_none_iff, code?_eq_none_iff]
  constructor
  · intro h
    refine ⟨fun s hs => h (.onlySpelling hs), fun s hs hname => h (.exact hs hname),
      fun name ha s hs hname => h (.alternative ha hs hname), ?_, ?_⟩
    · rw [Option.eq_none_iff_forall_ne_some]
      intro code hcode
      exact h (.vendor hcode)
    · intro name ha
      rw [Option.eq_none_iff_forall_ne_some]
      intro code hcode
      exact h (.vendorAlternative ha hcode)
  · rintro ⟨hspellings, hexact, halternative, hvendor, hboth⟩ h
    cases h with
    | onlySpelling hs => exact hspellings _ hs
    | exact hs hname => exact hexact _ hs hname
    | alternative ha hs hname => exact halternative _ ha _ hs hname
    | vendor hcode =>
      rw [hvendor] at hcode
      cases hcode
    | vendorAlternative ha hcode =>
      rw [hboth _ ha] at hcode
      cases hcode

/-- A key has a base resolution exactly if some rule gives it a keysym. -/
theorem exists_base_eq_ok_iff : (∃ resolution, r.base key = .ok resolution) ↔ r.HasBase key := by
  rw [← not_iff_not, not_hasBase_iff]
  constructor
  · intro h
    unfold base at h
    split at h
    · exact absurd ⟨_, rfl⟩ h
    · rename_i hspellings
      split at h
      · -- the name itself is accepted, whatever its other spellings
        split at h
        · exact absurd ⟨_, rfl⟩ h
        · exact absurd ⟨_, rfl⟩ h
        · exact absurd ⟨_, rfl⟩ h
      · rename_i hexact
        split at h
        · exact absurd ⟨_, rfl⟩ h
        · exact absurd ⟨_, rfl⟩ h
        · exact absurd ⟨_, rfl⟩ h
        · rename_i halternative hvendor hboth
          exact ⟨hspellings, hexact, halternative, hvendor, hboth⟩
  · rintro ⟨hspellings, hexact, halternative, hvendor, hboth⟩ ⟨resolution, h⟩
    unfold base at h
    split at h
    · rename_i s hs
      exact hspellings s hs
    · simp [hexact, halternative, hvendor, hboth] at h

/-- The keypad is refused exactly if its keysym is not accepted. -/
theorem withKeypad_eq_error_iff {base : Resolution} {e : ResolveError} :
    r.withKeypad key base = .error e ↔
      ∃ symbol, r.overrides.keypad? key = some symbol ∧ r.code? symbol = none ∧
        e = .unknownKeypadSymbol key symbol := by
  unfold withKeypad
  cases hkeypad : r.overrides.keypad? key with
  | none => simp
  | some symbol =>
    cases hcode : r.code? symbol with
    | none => simp [hcode, eq_comm]
    | some onKeypad => cases base <;> simp [hcode]

/-- A key fails exactly if it is broken. -/
theorem resolveKey_eq_error_iff {key : String × UInt32} {e : ResolveError} :
    r.resolveKey key = .error e ↔
      ∃ symbol, r.BrokenKeypad key.1 symbol ∧ e = .unknownKeypadSymbol key.1 symbol := by
  unfold resolveKey
  cases hignored : r.overrides.isIgnored key.1 with
  | true =>
    rw [if_pos rfl]
    refine iff_of_false (by simp) ?_
    rintro ⟨symbol, hbroken, -⟩
    rw [hbroken.not_ignored] at hignored
    cases hignored
  | false =>
    rw [if_neg (by simp)]
    cases hbase : r.base key.1 with
    | error diagnostic =>
      refine iff_of_false (by simp) ?_
      rintro ⟨symbol, hbroken, -⟩
      obtain ⟨resolution, hok⟩ := exists_base_eq_ok_iff.2 hbroken.hasBase
      rw [hbase] at hok
      cases hok
    | ok base =>
      have hhas : r.HasBase key.1 := exists_base_eq_ok_iff.1 ⟨base, hbase⟩
      -- what comes behind the keypad does not fail
      have hbind : (r.withKeypad key.1 base >>= fun resolution =>
          (.ok (.resolved ⟨key.1, key.2, resolution⟩) : Except ResolveError KeyOutcome)) =
            .error e ↔ r.withKeypad key.1 base = .error e := by
        cases r.withKeypad key.1 base with
        | error e' => exact Iff.of_eq (by simp [bind, Except.bind])
        | ok resolution => exact iff_of_false (by simp [bind, Except.bind]) (by simp)
      refine hbind.trans (withKeypad_eq_error_iff.trans ?_)
      constructor
      · rintro ⟨symbol, hkeypad, hcode, rfl⟩
        exact ⟨symbol, ⟨hignored, hhas, hkeypad, code?_eq_none_iff.1 hcode⟩, rfl⟩
      · rintro ⟨symbol, hbroken, rfl⟩
        exact ⟨symbol, hbroken.keypad, code?_eq_none_iff.2 hbroken.not_accepted, rfl⟩

/-- The key is the first broken one of a toolkit table, and the symbol its keypad keysym. -/
structure FirstBroken (r : NaiveResolver) (toolkit : ToolkitTable) (key symbol : String) :
    Prop where
  listed : (toolkit.code? key).isSome
  broken : r.BrokenKeypad key symbol
  first : ∀ other ∈ toolkit.toList, (∃ s, r.BrokenKeypad other.1 s) →
    other.1 = key ∨ Text.Precedes key other.1

/-- Which key is the first broken one depends on which keys are broken only. -/
theorem FirstBroken.congr {r' : NaiveResolver} {toolkit : ToolkitTable}
    (h : r.FirstBroken toolkit key symbol)
    (hiff : ∀ key symbol, r'.BrokenKeypad key symbol ↔ r.BrokenKeypad key symbol) :
    r'.FirstBroken toolkit key symbol := by
  refine ⟨h.listed, (hiff key symbol).2 h.broken, ?_⟩
  rintro other hother ⟨s, hs⟩
  exact h.first other hother ⟨s, (hiff other.1 s).1 hs⟩

end NaiveResolver

namespace Resolver

variable {r : Resolver} {toolkit : ToolkitTable}

/-- A table fails as its keys do. -/
theorem resolve_outcome_eq_error_iff {e : ResolveError} :
    (r.resolve toolkit).outcome = .error e ↔
      (r.resolveKeys toolkit.toList).outcome = .error e := by
  rw [resolve, Logged.outcome_bind_eq_error_iff]
  constructor
  · rintro (h | ⟨outcomes, -, h⟩)
    · exact h
    · cases h
  · exact .inl

/-- The symbols accepted, a key fails exactly if it is broken. -/
theorem resolveKey_outcome_eq_error_iff (h : r.primary.Consistent) {key : String × UInt32}
    {e : ResolveError} :
    (r.resolveKey key).outcome = .error e ↔
      ∃ symbol, r.naive.BrokenKeypad key.1 symbol ∧ e = .unknownKeypadSymbol key.1 symbol := by
  rw [resolveKey_outcome_eq_naive h]
  exact NaiveResolver.resolveKey_eq_error_iff

/-- The error of a table is that of its first broken key: the keys before it resolve, and the keys
behind it come later by name. -/
theorem resolve_outcome_eq_error_iff_firstBroken (h : r.primary.Consistent) {e : ResolveError} :
    (r.resolve toolkit).outcome = .error e ↔
      ∃ key symbol, r.naive.FirstBroken toolkit key symbol ∧
        e = .unknownKeypadSymbol key symbol := by
  rw [resolve_outcome_eq_error_iff, resolveKeys_outcome_eq_error_iff]
  constructor
  · rintro ⟨before, key, after, hkeys, hbefore, hkey⟩
    obtain ⟨symbol, hbroken, rfl⟩ := (resolveKey_outcome_eq_error_iff h).1 hkey
    have hmem : (key.1, key.2) ∈ toolkit.toList := by
      rw [hkeys]
      simp
    refine ⟨key.1, symbol, ⟨?_, hbroken, ?_⟩, rfl⟩
    · rw [ToolkitTable.code?_eq_some_iff.2 hmem]
      rfl
    · rintro other hother ⟨s, hs⟩
      rw [hkeys, List.mem_append, List.mem_cons] at hother
      rcases hother with hother | rfl | hother
      · -- a key before it resolves, so it is not broken
        obtain ⟨outcome, hok⟩ := hbefore other hother
        rw [(resolveKey_outcome_eq_error_iff h).2 ⟨s, hs, rfl⟩] at hok
        cases hok
      · exact .inl rfl
      · exact .inr ((ToolkitTable.precedes_of_toList_eq hkeys).2 other hother)
  · rintro ⟨name, symbol, ⟨hlisted, hbroken, hfirst⟩, rfl⟩
    obtain ⟨code, hcode⟩ := Option.isSome_iff_exists.1 hlisted
    obtain ⟨before, after, hkeys⟩ := List.append_of_mem (ToolkitTable.code?_eq_some_iff.1 hcode)
    refine ⟨before, (name, code), after, hkeys, ?_,
      (resolveKey_outcome_eq_error_iff h).2 ⟨symbol, hbroken, rfl⟩⟩
    intro earlier hmem
    have hlt := (ToolkitTable.precedes_of_toList_eq hkeys).1 earlier hmem
    cases hok : (r.resolveKey earlier).outcome with
    | ok outcome => exact ⟨outcome, rfl⟩
    | error e =>
      -- it would be broken and no later than the first broken key
      obtain ⟨s, hs, -⟩ := (resolveKey_outcome_eq_error_iff h).1 hok
      have hlistedEarlier : earlier ∈ toolkit.toList := by
        rw [hkeys]
        exact List.mem_append_left _ hmem
      rcases hfirst earlier hlistedEarlier ⟨s, hs⟩ with heq | hgt
      · exact absurd heq hlt.ne
      · exact absurd hgt hlt.asymm

/-- A table is made exactly if no key of the toolkit is broken. -/
theorem exists_table_iff (h : r.primary.Consistent) :
    (∃ table, (r.resolve toolkit).outcome = .ok table) ↔
      ∀ key ∈ toolkit.toList, ∀ symbol, ¬ r.naive.BrokenKeypad key.1 symbol := by
  constructor
  · rintro ⟨table, htable⟩ key hkey symbol hbroken
    -- every key of a table has an outcome, but a broken one has none
    obtain ⟨outcome, hsome, -⟩ := exists_settles_of_resolve htable hkey
    have hok := outcome?_eq_some_iff.1 hsome
    rw [(resolveKey_outcome_eq_error_iff h).2 ⟨symbol, hbroken, rfl⟩] at hok
    cases hok
  · intro hnone
    cases houtcome : (r.resolve toolkit).outcome with
    | ok table => exact ⟨table, rfl⟩
    | error e =>
      obtain ⟨key, symbol, hfirst, -⟩ :=
        (resolve_outcome_eq_error_iff_firstBroken h).1 houtcome
      obtain ⟨code, hcode⟩ := Option.isSome_iff_exists.1 hfirst.listed
      exact absurd hfirst.broken (hnone _ (ToolkitTable.code?_eq_some_iff.1 hcode) symbol)

/-- The resolver with other keypad keysyms. -/
def withKeypadNames (r : Resolver) (keypad : SortedMap String String) : Resolver :=
  { r with overrides := { r.overrides with keypad := keypad } }

/-- Keypad keysyms of keys that are to be left out, or that no rule gives a keysym, break
nothing. -/
theorem brokenKeypad_withKeypadNames_iff {keypad : SortedMap String String}
    (hkeypad : ∀ key, r.overrides.isIgnored key = false → r.naive.HasBase key →
      keypad.get? key = r.overrides.keypad? key) {key symbol : String} :
    (r.withKeypadNames keypad).naive.BrokenKeypad key symbol ↔
      r.naive.BrokenKeypad key symbol := by
  -- no rule asks for a keypad keysym
  have hbase : (r.withKeypadNames keypad).naive.HasBase key ↔ r.naive.HasBase key := by
    rw [← NaiveResolver.exists_base_eq_ok_iff, ← NaiveResolver.exists_base_eq_ok_iff]
    exact Iff.rfl
  constructor
  · intro h
    have hhas := hbase.1 h.hasBase
    exact ⟨h.not_ignored, hhas, (hkeypad key h.not_ignored hhas).symm.trans h.keypad,
      h.not_accepted⟩
  · intro h
    exact ⟨h.not_ignored, hbase.2 h.hasBase,
      (hkeypad key h.not_ignored h.hasBase).trans h.keypad, h.not_accepted⟩

/-- Broken keys of the toolkit make resolution fail, and nothing else does. -/
structure RejectsBrokenKeypad (r : Resolver) (toolkit : ToolkitTable) : Prop where
  not_caseIndexInconsistent : ∀ key,
    (r.resolve toolkit).outcome ≠ .error (.caseIndexInconsistent key)
  fails_iff :
    (∃ key symbol, (r.resolve toolkit).outcome = .error (.unknownKeypadSymbol key symbol)) ↔
      ∃ key ∈ toolkit.toList, ∃ symbol, r.naive.BrokenKeypad key.1 symbol
  succeeds_iff : (∃ table, (r.resolve toolkit).outcome = .ok table) ↔
    ∀ key ∈ toolkit.toList, ∀ symbol, ¬ r.naive.BrokenKeypad key.1 symbol
  /-- The error names the first broken key and its keypad keysym. -/
  names_first : ∀ key symbol,
    (r.resolve toolkit).outcome = .error (.unknownKeypadSymbol key symbol) ↔
      r.naive.FirstBroken toolkit key symbol
  /-- The keypad keysyms of keys that are left out or have no keysym make no difference. -/
  error_withKeypadNames_iff : ∀ keypad : SortedMap String String,
    (∀ key, r.overrides.isIgnored key = false → r.naive.HasBase key →
      keypad.get? key = r.overrides.keypad? key) →
    ∀ e, ((r.withKeypadNames keypad).resolve toolkit).outcome = .error e ↔
      (r.resolve toolkit).outcome = .error e

theorem rejectsBrokenKeypad_of_consistent (h : r.primary.Consistent) (toolkit : ToolkitTable) :
    r.RejectsBrokenKeypad toolkit := by
  refine ⟨?_, ?_, exists_table_iff h, ?_, ?_⟩
  · intro key herror
    obtain ⟨_, _, -, he⟩ := (resolve_outcome_eq_error_iff_firstBroken h).1 herror
    cases he
  · -- not every key is sound exactly if there is no table, so exactly if there is an error
    constructor
    · rintro ⟨key, symbol, herror⟩
      obtain ⟨name, symbol, hfirst, -⟩ := (resolve_outcome_eq_error_iff_firstBroken h).1 herror
      obtain ⟨code, hcode⟩ := Option.isSome_iff_exists.1 hfirst.listed
      exact ⟨(name, code), ToolkitTable.code?_eq_some_iff.1 hcode, symbol, hfirst.broken⟩
    · rintro ⟨key, hkey, symbol, hbroken⟩
      cases houtcome : (r.resolve toolkit).outcome with
      | ok table => exact absurd hbroken ((exists_table_iff h).1 ⟨table, houtcome⟩ key hkey symbol)
      | error e =>
        obtain ⟨name, symbol, -, rfl⟩ := (resolve_outcome_eq_error_iff_firstBroken h).1 houtcome
        exact ⟨name, symbol, rfl⟩
  · intro key symbol
    rw [resolve_outcome_eq_error_iff_firstBroken h]
    constructor
    · rintro ⟨name, keysym, hfirst, he⟩
      cases he
      exact hfirst
    · intro hfirst
      exact ⟨key, symbol, hfirst, rfl⟩
  · intro keypad hkeypad e
    have hiff : ∀ key symbol, (r.withKeypadNames keypad).naive.BrokenKeypad key symbol ↔
        r.naive.BrokenKeypad key symbol := fun _ _ => brokenKeypad_withKeypadNames_iff hkeypad
    have hconsistent : (r.withKeypadNames keypad).primary.Consistent := h
    rw [resolve_outcome_eq_error_iff_firstBroken h,
      resolve_outcome_eq_error_iff_firstBroken hconsistent]
    constructor
    · rintro ⟨key, symbol, hfirst, he⟩
      exact ⟨key, symbol, hfirst.congr fun key symbol => (hiff key symbol).symm, he⟩
    · rintro ⟨key, symbol, hfirst, he⟩
      exact ⟨key, symbol, hfirst.congr hiff, he⟩

end Resolver

/-- Over the accepted symbols of any text that parses, resolution fails on broken keys of the
toolkit and on nothing else, whatever the vendor table, the overrides and the toolkit table. -/
theorem resolve_rejectsBrokenKeypad {source : String} {primary : PrimaryTable}
    (hprimary : (PrimaryTable.ofText source).outcome = .ok primary) (vendor : VendorTable)
    (overrides : Overrides) (toolkit : ToolkitTable) :
    (Resolver.mk primary vendor overrides).RejectsBrokenKeypad toolkit := by
  obtain ⟨-, rfl⟩ := PrimaryTable.ofText_outcome_eq_ok_iff.1 hprimary
  exact Resolver.rejectsBrokenKeypad_of_consistent
    (PrimaryTable.consistent_ofDefinitions (PrimaryTable.definitionLines source)) toolkit

/-- The keys `A` and `B` have the keypad keysym `KP_A`, which no header defines, and only `A` has a
keysym to go with it. -/
def brokenOverrides : Overrides :=
  { Overrides.empty with keypad := .ofList [("A", "KP_A"), ("B", "KP_A")] }

/-- The pair that `A` resolves to does not save it. -/
theorem resolve_rejectsBrokenKeypad_mixedHeader :
    (PrimaryTable.ofText PrimaryTable.mixedHeader).outcome = .ok PrimaryTable.mixedTable ∧
      (Resolver.mk PrimaryTable.mixedTable .empty brokenOverrides).RejectsBrokenKeypad
        (.ofPairs [("B", 0x42), ("A", 0x41)]) ∧
      ((Resolver.mk PrimaryTable.mixedTable .empty brokenOverrides).resolve
        (.ofPairs [("B", 0x42), ("A", 0x41)])).outcome =
          .error (.unknownKeypadSymbol "A" "KP_A") := by
  refine ⟨PrimaryTable.ofText_mixedHeader,
    resolve_rejectsBrokenKeypad PrimaryTable.ofText_mixedHeader .empty brokenOverrides _, ?_⟩
  decide +kernel

end KeyDispatch
