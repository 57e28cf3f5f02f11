import KeyDispatch.Overrides.Builtin
import KeyDispatch.Proofs.KeyAccounts

/-!
# The exchange of two keys

Two keys trade places on one platform. In a table, each of the two has its own resolution, and that
of its partner on the platform; without a partner it keeps its own, and one diagnostic says so
(`resolve_exchangesPair`). No other entry depends on the platform, and neither does the answer to
any other key.
-/

namespace KeyDispatch

/-! ## The pair of overrides that can be made -/

namespace Overrides

/-- Overrides that can be made: no entries or the built-in ones, with extensions put over them. -/
inductive Made : Overrides → Prop where
  | empty : Made .empty
  | builtin : Made .builtin
  | extend {o : Overrides} (h : Made o) (extensions : Extensions) : Made (o.extend extensions).1

/-- No extension changes the pair that trades places. -/
theorem Made.swap_eq {o : Overrides} (h : o.Made) : o.swap = .controlMeta := by
  induction h with
  | empty => rfl
  | builtin => rfl
  | extend h extensions ih => exact ih

end Overrides

namespace Resolution

/-- The two resolutions are `a` and `b`, and the other way round on the platform. -/
structure Exchanged (platform : Platform) (a b first second : Resolution) : Prop where
  first_eq : first = .swapped a b platform
  second_eq : second = .swapped b a platform
  first_elsewhere : ∀ bits elsewhere, elsewhere ≠ platform →
    first.evaluate bits elsewhere = a.evaluate bits elsewhere
  second_elsewhere : ∀ bits elsewhere, elsewhere ≠ platform →
    second.evaluate bits elsewhere = b.evaluate bits elsewhere
  first_there : ∀ bits elsewhere, elsewhere ≠ platform →
    first.evaluate bits platform = second.evaluate bits elsewhere
  second_there : ∀ bits elsewhere, elsewhere ≠ platform →
    second.evaluate bits platform = first.evaluate bits elsewhere

theorem evaluate_swapped_there (a b : Resolution) (platform : Platform) (bits : UInt32) :
    (swapped a b platform).evaluate bits platform = b.evaluate bits platform := if_pos rfl

theorem evaluate_swapped_elsewhere (a b : Resolution) {platform elsewhere : Platform}
    (h : elsewhere ≠ platform) (bits : UInt32) :
    (swapped a b platform).evaluate bits elsewhere = a.evaluate bits elsewhere := if_neg h

/-- Resolutions that are not exchanged yet can be. -/
theorem exchanged_swapped {a b : Resolution} (ha : a.isSwapped = false) (hb : b.isSwapped = false)
    (platform : Platform) :
    Exchanged platform a b (.swapped a b platform) (.swapped b a platform) := by
  refine ⟨rfl, rfl, ?_, ?_, ?_, ?_⟩
  · intro bits elsewhere helsewhere
    exact evaluate_swapped_elsewhere a b helsewhere bits
  · intro bits elsewhere helsewhere
    exact evaluate_swapped_elsewhere b a helsewhere bits
  · intro bits elsewhere helsewhere
    rw [evaluate_swapped_there, evaluate_swapped_elsewhere b a helsewhere]
    exact evaluate_of_isSwapped_eq_false hb bits platform elsewhere
  · intro bits elsewhere helsewhere
    rw [evaluate_swapped_there, evaluate_swapped_elsewhere a b helsewhere]
    exact evaluate_of_isSwapped_eq_false ha bits platform elsewhere

end Resolution

namespace DecisionTable

/-- The diagnostics that a key is not exchanged. -/
def unswapped (t : DecisionTable) : List Diagnostic :=
  t.diagnostics.filter fun d => !d.leavesOut

/-- The pair is exchanged in the table if both members have an entry, and nothing else is; `own` is
the resolution of a key before that. -/
structure ExchangesPair (t : DecisionTable) (toolkit : ToolkitTable)
    (own : String → Option Resolution) (swap : PlatformSwap) : Prop where
  both : ∀ e ∈ t.entries.toList, ∀ f ∈ t.entries.toList, e.name = swap.first →
    f.name = swap.second → ∃ a b, own swap.first = some a ∧ own swap.second = some b ∧
      Resolution.Exchanged swap.platform a b e.resolution f.resolution ∧ t.unswapped = []
  onlyFirst : ∀ e ∈ t.entries.toList, e.name = swap.first →
    (∀ f ∈ t.entries.toList, f.name ≠ swap.second) → own swap.first = some e.resolution ∧
      e.resolution.isSwapped = false ∧
      t.unswapped = [.swapPartnerUnresolved swap.first swap.second]
  onlySecond : ∀ f ∈ t.entries.toList, f.name = swap.second →
    (∀ e ∈ t.entries.toList, e.name ≠ swap.first) → own swap.second = some f.resolution ∧
      f.resolution.isSwapped = false ∧
      t.unswapped = [.swapPartnerUnresolved swap.second swap.first]
  neither : (∀ e ∈ t.entries.toList, e.name ≠ swap.first ∧ e.name ≠ swap.second) →
    t.unswapped = []
  others : ∀ e ∈ t.entries.toList, e.name ≠ swap.first → e.name ≠ swap.second →
    own e.name = some e.resolution ∧ e.resolution.isSwapped = false
  sides : ∀ e ∈ t.entries.toList, ∀ a b platform, e.resolution = .swapped a b platform →
    a.isSwapped = false ∧ b.isSwapped = false
  dispatch_eq : ∀ key, toolkit.code? swap.first ≠ some key → toolkit.code? swap.second ≠ some key →
    ∀ bits text p q, t.dispatch key bits text p = t.dispatch key bits text q

end DecisionTable

namespace Resolver

variable {r : Resolver} {toolkit : ToolkitTable} {table : DecisionTable}

/-- The entry that a name has by itself. -/
def ownEntryFor? (r : Resolver) (toolkit : ToolkitTable) (name : String) : Option Entry :=
  (toolkit.code? name).bind fun code => r.entryFor? (name, code)

/-- The resolution that a name has by itself, with its keypad keysym and before any exchange. -/
def own? (r : Resolver) (toolkit : ToolkitTable) (name : String) : Option Resolution :=
  (r.ownEntryFor? toolkit name).map (·.resolution)

theorem find?_filterMap_entryFor? (r : Resolver) (toolkit : ToolkitTable) (name : String) :
    ((toolkit.toList.filterMap r.entryFor?).find? fun e => e.name == name) =
      r.ownEntryFor? toolkit name :=
  toolkit.keys.find?_filterMap_toList (fun _ _ he => name_of_entryFor? he) name

/-- An entry by itself has the name it was asked for, and is not exchanged. -/
theorem of_ownEntryFor?_eq_some {name : String} {e : Entry}
    (h : r.ownEntryFor? toolkit name = some e) :
    e.name = name ∧ e.resolution.isSwapped = false := by
  obtain ⟨code, -, he⟩ := Option.bind_eq_some_iff.1 h
  exact ⟨name_of_entryFor? he, (of_entryFor?_eq_some he).2.1⟩

/-- What the exchange does to an entry: it takes both members of the pair. -/
def exchangeIfBoth (swap : PlatformSwap) : Option Resolution → Option Resolution → Entry → Entry
  | some a, some b => exchangeIn swap a b
  | _, _ => id

/-- What is said of a member of the pair that is alone. -/
def unswappedOf (swap : PlatformSwap) : Option Resolution → Option Resolution → List Diagnostic
  | some _, none => [.swapPartnerUnresolved swap.first swap.second]
  | none, some _ => [.swapPartnerUnresolved swap.second swap.first]
  | _, _ => []

theorem name_exchangeIn (swap : PlatformSwap) (a b : Resolution) (e : Entry) :
    (exchangeIn swap a b e).name = e.name := congrArg Prod.fst (key_exchangeIn swap a b e)

/-- The entry of a name in a table is its own one, exchanged if both members of the pair have
one. -/
theorem find?_entries_of_resolve (h : (r.resolve toolkit).outcome = .ok table) (name : String) :
    (table.entries.toList.find? fun e => e.name == name) =
      (r.ownEntryFor? toolkit name).map (exchangeIfBoth r.overrides.swap
        (r.own? toolkit r.overrides.swap.first) (r.own? toolkit r.overrides.swap.second)) := by
  obtain ⟨exchanged, hexchanged, rfl⟩ := exists_exchanged_of_resolve h
  rw [List.toList_toArray]
  have hown := r.find?_filterMap_entryFor? toolkit
  cases hexchanged with
  | both ha hb =>
    rw [hown] at ha hb
    simp only [own?, ha, hb, Option.map_some, exchangeIfBoth, List.find?_map, ← hown]
    congr 2
    funext e
    simp [name_exchangeIn]
  | onlyFirst ha hb =>
    rw [hown] at ha hb
    simp [own?, ha, hb, exchangeIfBoth, hown]
  | onlySecond ha hb =>
    rw [hown] at ha hb
    simp [own?, ha, hb, exchangeIfBoth, hown]
  | neither ha hb =>
    rw [hown] at ha hb
    simp [own?, ha, hb, exchangeIfBoth, hown]

/-- A key by itself is never said to be without its partner. -/
theorem leavesOut_of_mem {d : Diagnostic} (hd : d ∈ toolkit.toList.filterMap r.diagnostic?) :
    d.leavesOut = true := by
  obtain ⟨key, -, hd⟩ := List.mem_filterMap.1 hd
  obtain ⟨-, rfl | rfl⟩ := of_diagnostic?_eq_some hd
  · rfl
  · rfl

section Diagnostics

variable {swap : PlatformSwap} {entries : List Entry} {exchanged : List Entry × Option Diagnostic}

/-- What is left of all diagnostics without those of the exchange. -/
theorem filter_leavesOut_append (h : Exchanged swap entries exchanged) :
    (toolkit.toList.filterMap r.diagnostic? ++ exchanged.2.toList).filter Diagnostic.leavesOut =
      toolkit.toList.filterMap r.diagnostic? := by
  have hpair : exchanged.2.toList.filter Diagnostic.leavesOut = [] := by
    rw [List.filter_eq_nil_iff]
    intro d hd
    obtain ⟨⟨key, partner, rfl⟩, -⟩ := h.of_diagnostic (Option.mem_toList.1 hd)
    simp [Diagnostic.leavesOut]
  rw [List.filter_append, hpair, List.append_nil, List.filter_eq_self]
  intro d hd
  exact leavesOut_of_mem hd

/-- What is left of them without those of the keys by themselves. -/
theorem filter_not_leavesOut_append (h : Exchanged swap entries exchanged) :
    ((toolkit.toList.filterMap r.diagnostic? ++ exchanged.2.toList).filter fun d =>
      !d.leavesOut) = exchanged.2.toList := by
  have hkeys : ((toolkit.toList.filterMap r.diagnostic?).filter fun d => !d.leavesOut) = [] := by
    rw [List.filter_eq_nil_iff]
    intro d hd
    simp [leavesOut_of_mem hd]
  rw [List.filter_append, hkeys, List.nil_append, List.filter_eq_self]
  intro d hd
  obtain ⟨⟨key, partner, rfl⟩, -⟩ := h.of_diagnostic (Option.mem_toList.1 hd)
  rfl

end Diagnostics

/-- The diagnostics of a table that leave keys out are those of the keys by themselves. -/
theorem filter_leavesOut_of_resolve (h : (r.resolve toolkit).outcome = .ok table) :
    table.diagnostics.filter Diagnostic.leavesOut = toolkit.toList.filterMap r.diagnostic? := by
  obtain ⟨exchanged, hexchanged, rfl⟩ := exists_exchanged_of_resolve h
  exact filter_leavesOut_append hexchanged

/-- The others come behind them. -/
theorem diagnostics_of_resolve (h : (r.resolve toolkit).outcome = .ok table) :
    table.diagnostics = toolkit.toList.filterMap r.diagnostic? ++ table.unswapped := by
  obtain ⟨exchanged, hexchanged, rfl⟩ := exists_exchanged_of_resolve h
  rw [DecisionTable.unswapped, filter_not_leavesOut_append hexchanged]

/-- The diagnostics of the exchange tell which members of the pair have an entry. -/
theorem unswapped_of_resolve (h : (r.resolve toolkit).outcome = .ok table) :
    table.unswapped = unswappedOf r.overrides.swap
      (r.own? toolkit r.overrides.swap.first) (r.own? toolkit r.overrides.swap.second) := by
  obtain ⟨exchanged, hexchanged, rfl⟩ := exists_exchanged_of_resolve h
  have hown := r.find?_filterMap_entryFor? toolkit
  rw [DecisionTable.unswapped, filter_not_leavesOut_append hexchanged]
  cases hexchanged with
  | both ha hb =>
    rw [hown] at ha hb
    simp [own?, ha, hb, unswappedOf]
  | onlyFirst ha hb =>
    rw [hown] at ha hb
    simp [own?, ha, hb, unswappedOf]
  | onlySecond ha hb =>
    rw [hown] at ha hb
    simp [own?, ha, hb, unswappedOf]
  | neither ha hb =>
    rw [hown] at ha hb
    simp [own?, ha, hb, unswappedOf]

theorem own?_eq_some_iff {name : String} {a : Resolution} :
    r.own? toolkit name = some a ↔
      ∃ e, r.ownEntryFor? toolkit name = some e ∧ e.resolution = a := Option.map_eq_some_iff

theorem isSwapped_of_own? {name : String} {a : Resolution} (h : r.own? toolkit name = some a) :
    a.isSwapped = false := by
  obtain ⟨e, he, rfl⟩ := own?_eq_some_iff.1 h
  exact (of_ownEntryFor?_eq_some he).2

/-- An entry of a table comes from the entry that its name has by itself. -/
theorem exists_ownEntryFor?_of_mem (h : (r.resolve toolkit).outcome = .ok table) {e : Entry}
    (he : e ∈ table.entries.toList) :
    ∃ e', r.ownEntryFor? toolkit e.name = some e' ∧
      exchangeIfBoth r.overrides.swap (r.own? toolkit r.overrides.swap.first)
        (r.own? toolkit r.overrides.swap.second) e' = e := by
  have hne := (entries_ascending h).imp fun hlt => hlt.ne
  have hfind := (find?_name_eq_some_iff hne).2 ⟨he, rfl⟩
  rw [find?_entries_of_resolve h] at hfind
  exact Option.map_eq_some_iff.1 hfind

/-- A name has a resolution by itself only if the table has an entry of the name. -/
theorem own?_eq_none (h : (r.resolve toolkit).outcome = .ok table) {name : String}
    (hnone : ∀ e ∈ table.entries.toList, e.name ≠ name) : r.own? toolkit name = none := by
  have hfind : (table.entries.toList.find? fun e => e.name == name) = none := by
    rw [List.find?_eq_none]
    intro e he
    simpa using hnone e he
  rw [find?_entries_of_resolve h, Option.map_eq_none_iff] at hfind
  rw [own?, hfind]
  rfl

section ExchangeIn

variable {swap : PlatformSwap} {a b : Resolution} {e : Entry}

theorem resolution_exchangeIn_first (h : e.name = swap.first) :
    (exchangeIn swap a b e).resolution = .swapped a b swap.platform := by
  rw [exchangeIn, if_pos h]

theorem resolution_exchangeIn_second (hne : swap.first ≠ swap.second) (h : e.name = swap.second) :
    (exchangeIn swap a b e).resolution = .swapped b a swap.platform := by
  rw [exchangeIn, if_neg (h ▸ hne.symm), if_pos h]

theorem exchangeIn_of_ne (hfirst : e.name ≠ swap.first) (hsecond : e.name ≠ swap.second) :
    exchangeIn swap a b e = e := by
  rw [exchangeIn, if_neg hfirst, if_neg hsecond]

/-- An entry with another name stays as it is. -/
theorem exchangeIfBoth_of_ne (a b : Option Resolution) (hfirst : e.name ≠ swap.first)
    (hsecond : e.name ≠ swap.second) : exchangeIfBoth swap a b e = e := by
  unfold exchangeIfBoth
  split
  · exact exchangeIn_of_ne hfirst hsecond
  · rfl

/-- The sides of an entry that is exchanged are those of the pair. -/
theorem sides_of_exchangeIfBoth {a b : Option Resolution} (he : e.resolution.isSwapped = false)
    {x y : Resolution} {platform : Platform}
    (h : (exchangeIfBoth swap a b e).resolution = .swapped x y platform) :
    (a = some x ∧ b = some y) ∨ (b = some x ∧ a = some y) := by
  -- an entry that stays is not exchanged
  have hstays : e.resolution ≠ .swapped x y platform := by
    intro hplain
    rw [hplain] at he
    cases he
  cases a with
  | none => exact absurd h hstays
  | some a =>
    cases b with
    | none => exact absurd h hstays
    | some b =>
      rw [exchangeIfBoth, exchangeIn] at h
      split at h
      · cases h
        exact .inl ⟨rfl, rfl⟩
      · split at h
        · cases h
          exact .inr ⟨rfl, rfl⟩
        · exact absurd h hstays

end ExchangeIn

section Pair

variable {e : Entry}

/-- An entry that does not belong to the pair is the one its name has by itself. -/
theorem own?_of_ne (h : (r.resolve toolkit).outcome = .ok table) (he : e ∈ table.entries.toList)
    (hfirst : e.name ≠ r.overrides.swap.first) (hsecond : e.name ≠ r.overrides.swap.second) :
    r.own? toolkit e.name = some e.resolution := by
  obtain ⟨e', hown, hexchange⟩ := exists_ownEntryFor?_of_mem h he
  obtain ⟨hname, -⟩ := of_ownEntryFor?_eq_some hown
  rw [exchangeIfBoth_of_ne _ _ (hname ▸ hfirst) (hname ▸ hsecond)] at hexchange
  exact own?_eq_some_iff.2 ⟨e', hown, congrArg Entry.resolution hexchange⟩

/-- So is every entry if a member of the pair has none. -/
theorem own?_of_alone (h : (r.resolve toolkit).outcome = .ok table)
    (he : e ∈ table.entries.toList)
    (halone : r.own? toolkit r.overrides.swap.first = none ∨
      r.own? toolkit r.overrides.swap.second = none) :
    r.own? toolkit e.name = some e.resolution := by
  obtain ⟨e', hown, hexchange⟩ := exists_ownEntryFor?_of_mem h he
  have hid : exchangeIfBoth r.overrides.swap (r.own? toolkit r.overrides.swap.first)
      (r.own? toolkit r.overrides.swap.second) = id := by
    unfold exchangeIfBoth
    split
    · rename_i ha hb
      rcases halone with hnone | hnone
      · rw [hnone] at ha
        cases ha
      · rw [hnone] at hb
        cases hb
    · rfl
  rw [hid] at hexchange
  exact own?_eq_some_iff.2 ⟨e', hown, congrArg Entry.resolution hexchange⟩

/-- The two members of the pair get the resolutions of one another. -/
theorem exchanged_of_mem (h : (r.resolve toolkit).outcome = .ok table)
    (hne : r.overrides.swap.first ≠ r.overrides.swap.second) (he : e ∈ table.entries.toList)
    {f : Entry} (hf : f ∈ table.entries.toList) (hfirst : e.name = r.overrides.swap.first)
    (hsecond : f.name = r.overrides.swap.second) :
    ∃ a b, r.own? toolkit r.overrides.swap.first = some a ∧
      r.own? toolkit r.overrides.swap.second = some b ∧
      Resolution.Exchanged r.overrides.swap.platform a b e.resolution f.resolution := by
  obtain ⟨e', he', hexchange⟩ := exists_ownEntryFor?_of_mem h he
  obtain ⟨f', hf', hexchange'⟩ := exists_ownEntryFor?_of_mem h hf
  rw [hfirst] at he'
  rw [hsecond] at hf'
  obtain ⟨hname, hswap⟩ := of_ownEntryFor?_eq_some he'
  obtain ⟨hname', hswap'⟩ := of_ownEntryFor?_eq_some hf'
  have ha : r.own? toolkit r.overrides.swap.first = some e'.resolution :=
    own?_eq_some_iff.2 ⟨e', he', rfl⟩
  have hb : r.own? toolkit r.overrides.swap.second = some f'.resolution :=
    own?_eq_some_iff.2 ⟨f', hf', rfl⟩
  rw [ha, hb] at hexchange hexchange'
  refine ⟨e'.resolution, f'.resolution, ha, hb, ?_⟩
  rw [← hexchange, ← hexchange', exchangeIfBoth, resolution_exchangeIn_first hname,
    resolution_exchangeIn_second hne hname']
  exact Resolution.exchanged_swapped hswap hswap' r.overrides.swap.platform

/-- The sides of an exchanged entry are not exchanged themselves. -/
theorem isSwapped_sides_of_mem (h : (r.resolve toolkit).outcome = .ok table)
    (he : e ∈ table.entries.toList) {x y : Resolution} {platform : Platform}
    (hswapped : e.resolution = .swapped x y platform) :
    x.isSwapped = false ∧ y.isSwapped = false := by
  obtain ⟨e', he', hexchange⟩ := exists_ownEntryFor?_of_mem h he
  obtain ⟨-, hswap⟩ := of_ownEntryFor?_eq_some he'
  rw [← hexchange] at hswapped
  rcases sides_of_exchangeIfBoth hswap hswapped with ⟨hx, hy⟩ | ⟨hx, hy⟩
  · exact ⟨isSwapped_of_own? hx, isSwapped_of_own? hy⟩
  · exact ⟨isSwapped_of_own? hx, isSwapped_of_own? hy⟩

/-- The answer to the code of another key does not depend on the platform. -/
theorem dispatch_eq_of_code_ne (h : (r.resolve toolkit).outcome = .ok table) {key : UInt32}
    (hfirst : toolkit.code? r.overrides.swap.first ≠ some key)
    (hsecond : toolkit.code? r.overrides.swap.second ≠ some key) (bits : UInt32) (text : String)
    (p q : Platform) : table.dispatch key bits text p = table.dispatch key bits text q := by
  rw [DecisionTable.dispatch_eq_or, DecisionTable.dispatch_eq_or]
  congr 1
  unfold DecisionTable.dispatchKey
  cases hfind : table.entries.toList.find? fun e => e.toolkitCode == key with
  | none => rfl
  | some e =>
    -- the entry that answers has the code, so it does not belong to the pair
    have hmem := List.mem_of_find?_eq_some hfind
    have hcode : e.toolkitCode = key := by simpa using List.find?_some hfind
    have hlisted : toolkit.code? e.name = some key :=
      hcode ▸ (resolve_accountsFor h).entry_listed e hmem
    have hown := own?_of_ne h hmem (fun hname => hfirst (hname ▸ hlisted))
      fun hname => hsecond (hname ▸ hlisted)
    have hswap := isSwapped_of_own? hown
    rw [Option.map_some, Option.map_some, Resolution.evaluate_of_isSwapped_eq_false hswap bits p q]

end Pair

/-- The entries of a table are their own ones, with the pair exchanged. -/
theorem exchangesPair_of_resolve (h : (r.resolve toolkit).outcome = .ok table)
    (hne : r.overrides.swap.first ≠ r.overrides.swap.second) :
    table.ExchangesPair toolkit (r.own? toolkit) r.overrides.swap := by
  have hunswapped := unswapped_of_resolve h
  refine ⟨?_, ?_, ?_, ?_, ?_, ?_, ?_⟩
  · intro e he f hf hfirst hsecond
    obtain ⟨a, b, ha, hb, hexchanged⟩ := exchanged_of_mem h hne he hf hfirst hsecond
    rw [ha, hb] at hunswapped
    exact ⟨a, b, ha, hb, hexchanged, hunswapped⟩
  · intro e he hfirst hnone
    have hb := own?_eq_none h hnone
    have ha := own?_of_alone h he (.inr hb)
    rw [hfirst] at ha
    rw [ha, hb] at hunswapped
    exact ⟨ha, isSwapped_of_own? ha, hunswapped⟩
  · intro f hf hsecond hnone
    have ha := own?_eq_none h hnone
    have hb := own?_of_alone h hf (.inl ha)
    rw [hsecond] at hb
    rw [ha, hb] at hunswapped
    exact ⟨hb, isSwapped_of_own? hb, hunswapped⟩
  · intro hnone
    have ha := own?_eq_none h fun e he => (hnone e he).1
    have hb := own?_eq_none h fun e he => (hnone e he).2
    rw [ha, hb] at hunswapped
    exact hunswapped
  · intro e he hfirst hsecond
    have hown := own?_of_ne h he hfirst hsecond
    exact ⟨hown, isSwapped_of_own? hown⟩
  · intro e he x y platform hswapped
    exact isSwapped_sides_of_mem h he hswapped
  · intro key hfirst hsecond bits text p q
    exact dispatch_eq_of_code_ne h hfirst hsecond bits text p q

end Resolver

/-- In every table that is made with overrides that can be made, Control and Meta trade places on
macOS if both have an entry, and nothing else does. -/
theorem resolve_exchangesPair {primary : PrimaryTable} {vendor : VendorTable}
    {overrides : Overrides} (hmade : overrides.Made) {toolkit : ToolkitTable}
    {table : DecisionTable}
    (h : ((Resolver.mk primary vendor overrides).resolve toolkit).outcome = .ok table) :
    table.ExchangesPair toolkit ((Resolver.mk primary vendor overrides).own? toolkit)
      ⟨"Control", "Meta", .macOS⟩ := by
  have hswap : overrides.swap = .controlMeta := hmade.swap_eq
  have hpair := Resolver.exchangesPair_of_resolve h (by rw [hswap]; decide)
  rw [hswap] at hpair
  exact hpair

/-- Overrides that take `Control` for `a`, with `A` on the keypad, and `Meta` for `A`. -/
def pairOverrides : Overrides :=
  (Overrides.empty.extend
    ⟨.ofList [("Control", "a"), ("Meta", "A")], .ofList [("Control", "A")], []⟩).1

/-- Control and Meta, and a key between them. -/
def pairKeys : ToolkitTable :=
  .ofPairs [("Meta", 0x01000022), ("K", 0x4b), ("Control", 0x01000021)]

/-- `Control` and `Meta` are exchanged, and `K` stays without a keysym. -/
def pairDecisions : DecisionTable where
  textCases := .ofList [(0x61, ⟨0x61⟩)]
  entries := #[
    ⟨"Control", 0x01000021, .swapped (.keypad ⟨0x61⟩ ⟨0x63⟩) (.fixed ⟨0x63⟩) .macOS⟩,
    ⟨"Meta", 0x01000022, .swapped (.fixed ⟨0x63⟩) (.keypad ⟨0x61⟩ ⟨0x63⟩) .macOS⟩]
  diagnostics := [.noMatch "K"]

theorem resolve_pairKeys :
    ((Resolver.mk PrimaryTable.mixedTable .empty pairOverrides).resolve pairKeys).outcome =
      .ok pairDecisions := by
  decide +kernel

/-- On macOS the code of Meta has the keysym that Control has elsewhere. -/
theorem resolve_exchangesPair_pairKeys :
    pairOverrides.Made ∧
      ((Resolver.mk PrimaryTable.mixedTable .empty pairOverrides).resolve pairKeys).outcome =
        .ok pairDecisions ∧
      pairDecisions.ExchangesPair pairKeys
        ((Resolver.mk PrimaryTable.mixedTable .empty pairOverrides).own? pairKeys)
        ⟨"Control", "Meta", .macOS⟩ ∧
      pairDecisions.dispatch 0x01000022 0 "" .macOS = some ⟨0x61⟩ :=
  have hmade : pairOverrides.Made := .extend .empty _
  ⟨hmade, resolve_pairKeys, resolve_exchangesPair hmade resolve_pairKeys, by decide⟩

end KeyDispatch
