import KeyDispatch.Resolver
import Mathlib.Tactic

/-!
# What becomes of keys

Each step of the resolver has a few cases, and each case its conditions and its result (`baseCase`,
`keypadCase`, `keyCase`). So a key that can be resolved is left out, has an entry under its own name
and code, or has a diagnostic that names it (`settles_of_resolveKey`). Several keys resolve if each
of them does (`resolveKeys_outcome_eq_ok_iff`), and otherwise fail as the first of them that fails
(`resolveKeys_outcome_eq_error_iff`).

The keys of a toolkit table have different names and stand in the order of code points, so what the
table's keys yield under a name is what the one key of that name yields
(`find?_filterMap_toList`, `map_filterMap_toList_pairwise`).
-/

namespace KeyDispatch

/-! ## The order of names -/

/-- The text comes before the other by code points: where they differ first it has the smaller
one, or it ends. -/
def Text.Precedes (a b : String) : Prop :=
  List.Lex (fun c d : Char => c.val < d.val) a.toList b.toList

/-- The order of names in a map is that of code points. -/
theorem Text.compare_eq_lt_iff {a b : String} : compare a b = .lt ↔ Text.Precedes a b := by
  show compareOfLessAndEq a b = .lt ↔ _
  rw [compareOfLessAndEq_eq_lt]
  exact Iff.rfl

theorem Text.Precedes.ne {a b : String} (h : Text.Precedes a b) : a ≠ b := by
  rintro rfl
  have hlt : compare a a = .lt := Text.compare_eq_lt_iff.2 h
  simp at hlt

theorem Text.Precedes.asymm {a b : String} (h : Text.Precedes a b) : ¬ Text.Precedes b a := by
  intro h'
  have hlt : compare a b = .lt := Text.compare_eq_lt_iff.2 h
  have hloop : compare a a = .lt := Std.TransCmp.lt_trans hlt (Text.compare_eq_lt_iff.2 h')
  simp at hloop

/-- In a list of different names a search finds whatever is there. -/
theorem find?_name_eq_some_iff {α : Type} {name : α → String} {l : List α}
    (h : l.Pairwise fun a b => name a ≠ name b) {query : String} {a : α} :
    (l.find? fun a => name a == query) = some a ↔ a ∈ l ∧ name a = query := by
  constructor
  · intro hfind
    exact ⟨List.mem_of_find?_eq_some hfind, by simpa using List.find?_some hfind⟩
  · rintro ⟨hmem, rfl⟩
    induction l with
    | nil => cases hmem
    | cons b l ih =>
      obtain ⟨hhead, hrest⟩ := List.pairwise_cons.1 h
      rcases List.mem_cons.1 hmem with rfl | hmem
      · rw [List.find?_cons_of_pos (by simp)]
      · rw [List.find?_cons_of_neg (by simpa using hhead a hmem)]
        exact ih hrest hmem

/-- In a list of different names, what has a name is found by a search for it. -/
theorem filter_name_eq_toList_find? {α : Type} {name : α → String} {l : List α}
    (h : l.Pairwise fun a b => name a ≠ name b) (query : String) :
    (l.filter fun a => name a == query) = (l.find? fun a => name a == query).toList := by
  induction l with
  | nil => rfl
  | cons a l ih =>
    obtain ⟨hhead, hrest⟩ := List.pairwise_cons.1 h
    by_cases ha : name a = query
    · have hnone : (l.filter fun b => name b == query) = [] := by
        rw [List.filter_eq_nil_iff]
        intro b hb hbq
        have hb' : name b = query := by simpa using hbq
        exact hhead b hb (ha.trans hb'.symm)
      simp [ha, hnone]
    · simp [ha, ih hrest]

namespace SortedMap

section Yields

variable {β γ : Type} {f : String × β → Option γ} {name : γ → String}

/-- What the entries of a map yield under their own names is in the order of the entries. -/
theorem map_filterMap_toList_pairwise (m : SortedMap String β)
    (hname : ∀ entry c, f entry = some c → name c = entry.1) :
    (m.toList.filterMap f).Pairwise fun a b => Text.Precedes (name a) (name b) := by
  refine List.Pairwise.filterMap f ?_ m.ascending
  intro a b hab c hc d hd
  rw [hname a c hc, hname b d hd]
  exact Text.compare_eq_lt_iff.1 hab

/-- What the entries of a map yield under a name is what the entry of that name yields. -/
theorem find?_filterMap_toList (m : SortedMap String β)
    (hname : ∀ entry c, f entry = some c → name c = entry.1) (query : String) :
    ((m.toList.filterMap f).find? fun c => name c == query) =
      (m.get? query).bind fun v => f (query, v) := by
  have hne := (m.map_filterMap_toList_pairwise hname).imp fun h => h.ne
  ext1 c
  rw [find?_name_eq_some_iff hne, Option.bind_eq_some_iff, List.mem_filterMap]
  constructor
  · rintro ⟨⟨⟨key, v⟩, hmem, hc⟩, rfl⟩
    obtain rfl : name c = key := hname _ c hc
    exact ⟨v, get?_eq_some_iff.2 hmem, hc⟩
  · rintro ⟨v, hv, hc⟩
    exact ⟨⟨_, get?_eq_some_iff.1 hv, hc⟩, hname _ c hc⟩

end Yields

end SortedMap

namespace ToolkitTable

variable {t : ToolkitTable}

theorem code?_eq_some_iff {name : String} {code : UInt32} :
    t.code? name = some code ↔ (name, code) ∈ t.toList := SortedMap.get?_eq_some_iff

/-- A name has one key only. -/
theorem filter_toList {key : String × UInt32} (hkey : key ∈ t.toList) :
    (t.toList.filter fun k => k.1 == key.1) = [key] := by
  have hfind : (t.toList.find? fun k => k.1 == key.1) = some key :=
    (find?_name_eq_some_iff t.keys.keys_ne).2 ⟨hkey, rfl⟩
  rw [toList] at hfind ⊢
  rw [filter_name_eq_toList_find? t.keys.keys_ne, hfind]
  rfl

/-- What the keys of a table yield under a name is what the key of that name yields. -/
theorem filter_filterMap_toList {γ : Type} {f : String × UInt32 → Option γ} {name : γ → String}
    (hname : ∀ key c, f key = some c → name c = key.1) {key : String × UInt32}
    (hkey : key ∈ t.toList) :
    ((t.toList.filterMap f).filter fun c => name c == key.1) = (f key).toList := by
  have hget : t.keys.get? key.1 = some key.2 := SortedMap.get?_eq_some_iff.2 hkey
  have hne := (t.keys.map_filterMap_toList_pairwise hname).imp fun h => h.ne
  rw [toList, filter_name_eq_toList_find? hne, t.keys.find?_filterMap_toList hname, hget]
  rfl

/-- The keys before a key have smaller names, and those behind it have greater ones. -/
theorem precedes_of_toList_eq {before after : List (String × UInt32)} {key : String × UInt32}
    (h : t.toList = before ++ key :: after) :
    (∀ earlier ∈ before, Text.Precedes earlier.1 key.1) ∧
      ∀ later ∈ after, Text.Precedes key.1 later.1 := by
  have hascending := t.keys.ascending
  have hkeys : t.keys.toList = before ++ key :: after := h
  rw [hkeys, List.pairwise_append, List.pairwise_cons] at hascending
  obtain ⟨-, ⟨hafter, -⟩, hbefore⟩ := hascending
  constructor
  · intro earlier hmem
    exact Text.compare_eq_lt_iff.1 (hbefore earlier hmem key List.mem_cons_self)
  · intro later hmem
    exact Text.compare_eq_lt_iff.1 (hafter later hmem)

end ToolkitTable

/-! ## Failure of one step after another -/

/-- Two steps fail as the first one does, or as the second one does after it. -/
theorem Logged.outcome_bind_eq_error_iff {ε α β : Type} {m : Logged ε α} {f : α → Logged ε β}
    {e : ε} :
    (m >>= f).outcome = .error e ↔
      m.outcome = .error e ∨ ∃ a, m.outcome = .ok a ∧ (f a).outcome = .error e := by
  cases h : m.outcome with
  | error e' => simp [bind_error h]
  | ok a => simp [bind_ok h]

namespace Resolution

/-- The resolution is another one on some platform. -/
def isSwapped : Resolution → Bool
  | .swapped _ _ _ => true
  | _ => false

/-- A resolution that is not exchanged gives the same keysym everywhere. -/
theorem evaluate_of_isSwapped_eq_false {resolution : Resolution}
    (h : resolution.isSwapped = false) (bits : UInt32) (p q : Platform) :
    resolution.evaluate bits p = resolution.evaluate bits q := by
  cases resolution with
  | fixed keysym => rfl
  | shift lower upper => rfl
  | keypad plain onKeypad => rfl
  | swapped normal exchanged platform => cases h

/-- One keysym, or two that Shift decides between: all that a key has by its name alone. -/
inductive IsBase : Resolution → Prop where
  | fixed (keysym : Keysym) : IsBase (.fixed keysym)
  | shift (lower upper : Keysym) : IsBase (.shift lower upper)

theorem IsBase.isSwapped_eq_false {base : Resolution} (h : base.IsBase) :
    base.isSwapped = false := by
  cases h with
  | fixed keysym => rfl
  | shift lower upper => rfl

end Resolution

namespace Resolver

variable {r : Resolver}

/-! ## The rules -/

/-- The rule that gives a key its base resolution: the only spelling of its name, the spellings of a
name that is accepted and has several, or a substitute. -/
inductive BaseRule (r : Resolver) (key : String) : Resolution → Prop where
  | onlySpelling {code : Keysym} (h : r.uniqueSpelling? key = some code) :
      BaseRule r key (.fixed code)
  | spelled {exact : Keysym} (h : r.primary.code? key = some exact)
      (hmark : r.primary.caseIndex.isNonUnique key) : BaseRule r key (r.spelled key exact)
  | substitute {code : Keysym} (h : r.substitute? key = some code) : BaseRule r key (.fixed code)

theorem isBase_spelled (r : Resolver) (name : String) (exact : Keysym) :
    (r.spelled name exact).IsBase := by
  unfold spelled
  split
  · exact .shift _ _
  · exact .fixed _
  · exact .fixed _

theorem BaseRule.isBase {name : String} {base : Resolution} (h : r.BaseRule name base) :
    base.IsBase := by
  cases h with
  | onlySpelling hunique => exact .fixed _
  | spelled hexact hmark => exact r.isBase_spelled name _
  | substitute hsubstitute => exact .fixed _

/-- The cases of `resolveBase`: a name to be left out; a rule gives it a resolution; no rule does; or
it is accepted, and the index of spellings knows nothing of it. -/
inductive BaseCase (r : Resolver) (name : String) : Prop where
  | ignored (hignored : r.overrides.isIgnored name = true)
      (heq : r.resolveBase name = .ok .ignored)
  | resolved {base : Resolution} (hignored : r.overrides.isIgnored name = false)
      (hrule : r.BaseRule name base) (heq : r.resolveBase name = .ok (.resolved base))
  | unresolved {diagnostic : Diagnostic} (hignored : r.overrides.isIgnored name = false)
      (hd : diagnostic = .caseMismatch name ∨ diagnostic = .noMatch name)
      (heq : r.resolveBase name = .ok (.unresolved diagnostic))
  | inconsistent (hignored : r.overrides.isIgnored name = false)
      (heq : r.resolveBase name = .error (.caseIndexInconsistent name))

theorem baseCase (r : Resolver) (name : String) : r.BaseCase name := by
  -- the questions in the order in which the rules ask them
  cases hignored : r.overrides.isIgnored name with
  | true => exact .ignored hignored (by rw [resolveBase, hignored]; rfl)
  | false =>
    cases hunique : r.uniqueSpelling? name with
    | some code =>
      refine .resolved hignored (.onlySpelling hunique) ?_
      simp [resolveBase, hignored, hunique]
    | none =>
      cases hexact : r.primary.code? name with
      | some exact =>
        cases hmark : r.primary.caseIndex.isNonUnique name with
        | true =>
          refine .resolved hignored (.spelled hexact hmark) ?_
          simp [resolveBase, hignored, hunique, hexact, hmark]
        | false =>
          refine .inconsistent hignored ?_
          simp [resolveBase, hignored, hunique, hexact, hmark]
      | none =>
        cases hsubstitute : r.substitute? name with
        | some code =>
          refine .resolved hignored (.substitute hsubstitute) ?_
          simp [resolveBase, hignored, hunique, hexact, hsubstitute]
        | none =>
          cases hmark : r.primary.caseIndex.isNonUnique name with
          | true =>
            refine .unresolved hignored (.inl rfl) ?_
            simp [resolveBase, hignored, hunique, hexact, hsubstitute, hmark]
          | false =>
            refine .unresolved hignored (.inr rfl) ?_
            simp [resolveBase, hignored, hunique, hexact, hsubstitute, hmark]

/-- The cases of `applyKeypad`: the key has no keypad keysym, or one that is not accepted; or it is
added to a single keysym, or left aside with a warning. -/
inductive KeypadCase (r : Resolver) (name : String) (base : Resolution) : Prop where
  | kept (hnone : r.overrides.keypad? name = none) (heq : r.applyKeypad name base = pure base)
  | unknown {symbol : String} (hname : r.overrides.keypad? name = some symbol)
      (hcode : r.primary.code? symbol = none)
      (heq : r.applyKeypad name base = .fail (.unknownKeypadSymbol name symbol))
  | added {symbol : String} {plain onKeypad : Keysym}
      (hname : r.overrides.keypad? name = some symbol)
      (hcode : r.primary.code? symbol = some onKeypad) (hbase : base = .fixed plain)
      (heq : r.applyKeypad name base = pure (.keypad plain onKeypad))
  | leftAside {symbol : String} {onKeypad : Keysym}
      (hname : r.overrides.keypad? name = some symbol)
      (hcode : r.primary.code? symbol = some onKeypad) (hbase : ∀ plain, base ≠ .fixed plain)
      (heq : r.applyKeypad name base = ⟨[.keypadNotApplied name symbol], .ok base⟩)

theorem keypadCase (r : Resolver) (name : String) (base : Resolution) : r.KeypadCase name base := by
  cases hname : r.overrides.keypad? name with
  | none => exact .kept hname (by rw [applyKeypad, hname])
  | some symbol =>
    cases hcode : r.primary.code? symbol with
    | none => exact .unknown hname hcode (by simp only [applyKeypad, hname, hcode])
    | some onKeypad =>
      cases base with
      | fixed plain => exact .added hname hcode rfl (by simp only [applyKeypad, hname, hcode])
      | shift lower upper =>
        exact .leftAside hname hcode (by simp) (by simp only [applyKeypad, hname, hcode])
      | keypad plain other =>
        exact .leftAside hname hcode (by simp) (by simp only [applyKeypad, hname, hcode])
      | swapped normal exchanged platform =>
        exact .leftAside hname hcode (by simp) (by simp only [applyKeypad, hname, hcode])

/-- The keypad does not exchange anything. -/
theorem isSwapped_of_applyKeypad {name : String} {base resolution : Resolution}
    (h : (r.applyKeypad name base).outcome = .ok resolution) (hbase : base.isSwapped = false) :
    resolution.isSwapped = false := by
  cases r.keypadCase name base with
  | kept hnone heq =>
    rw [heq] at h
    obtain rfl := Except.ok.inj h
    exact hbase
  | unknown hname hcode heq =>
    rw [heq] at h
    cases h
  | added hname hcode hfixed heq =>
    rw [heq] at h
    obtain rfl := Except.ok.inj h
    rfl
  | leftAside hname hcode hne heq =>
    rw [heq] at h
    obtain rfl := Except.ok.inj h
    exact hbase

/-- The cases of `resolveKey`: those of its name, and where a rule gives a resolution those of the
keypad. -/
inductive KeyCase (r : Resolver) (key : String × UInt32) : Prop where
  | ignored (hignored : r.overrides.isIgnored key.1 = true)
      (heq : r.resolveKey key = pure .ignored)
  | unresolved {diagnostic : Diagnostic} (hignored : r.overrides.isIgnored key.1 = false)
      (hd : diagnostic = .caseMismatch key.1 ∨ diagnostic = .noMatch key.1)
      (heq : r.resolveKey key = ⟨[.diagnosed diagnostic], .ok (.unresolved diagnostic)⟩)
  | inconsistent (hignored : r.overrides.isIgnored key.1 = false)
      (heq : r.resolveKey key = .fail (.caseIndexInconsistent key.1))
  | unknownKeypad {base : Resolution} {symbol : String}
      (hignored : r.overrides.isIgnored key.1 = false) (hrule : r.BaseRule key.1 base)
      (hname : r.overrides.keypad? key.1 = some symbol) (hcode : r.primary.code? symbol = none)
      (heq : r.resolveKey key = .fail (.unknownKeypadSymbol key.1 symbol))
  | resolved {base resolution : Resolution} (hignored : r.overrides.isIgnored key.1 = false)
      (hrule : r.BaseRule key.1 base)
      (hkeypad : (r.applyKeypad key.1 base).outcome = .ok resolution)
      (heq : r.resolveKey key =
        ⟨(r.applyKeypad key.1 base).events ++ [.resolved key.1 resolution],
          .ok (.resolved ⟨key.1, key.2, resolution⟩)⟩)

theorem keyCase (r : Resolver) (key : String × UInt32) : r.KeyCase key := by
  cases r.baseCase key.1 with
  | ignored hignored hbase => exact .ignored hignored (by rw [resolveKey, hbase])
  | unresolved hignored hd hbase => exact .unresolved hignored hd (by rw [resolveKey, hbase])
  | inconsistent hignored hbase => exact .inconsistent hignored (by rw [resolveKey, hbase])
  | @resolved base hignored hrule hbase =>
    cases hkeypad : (r.applyKeypad key.1 base).outcome with
    | ok resolution =>
      refine .resolved hignored hrule hkeypad ?_
      rw [resolveKey, hbase]
      exact Logged.bind_ok hkeypad
    | error e =>
      cases r.keypadCase key.1 base with
      | unknown hname hcode heq =>
        refine .unknownKeypad hignored hrule hname hcode ?_
        rw [resolveKey, hbase]
        dsimp only
        rw [heq]
        rfl
      -- the other cases of the keypad do not fail
      | kept hnone heq =>
        rw [heq] at hkeypad
        cases hkeypad
      | added hname hcode hfixed heq =>
        rw [heq] at hkeypad
        cases hkeypad
      | leftAside hname hcode hne heq =>
        rw [heq] at hkeypad
        cases hkeypad

/-! ## One key -/

/-- What can become of a key: it is to be left out; or a diagnostic says that its name has only
spellings in other cases or none at all; or it has an entry. -/
inductive Settles (r : Resolver) (key : String × UInt32) : KeyOutcome → Prop where
  | ignored (h : r.overrides.isIgnored key.1 = true) : Settles r key .ignored
  | unresolved {diagnostic : Diagnostic} (h : r.overrides.isIgnored key.1 = false)
      (hd : diagnostic = .caseMismatch key.1 ∨ diagnostic = .noMatch key.1) :
      Settles r key (.unresolved diagnostic)
  | resolved {resolution : Resolution} (h : r.overrides.isIgnored key.1 = false)
      (hswap : resolution.isSwapped = false) :
      Settles r key (.resolved ⟨key.1, key.2, resolution⟩)

/-- A key that resolves is left out, unresolved or resolved, under its own name. -/
theorem settles_of_resolveKey {key : String × UInt32} {outcome : KeyOutcome}
    (h : (r.resolveKey key).outcome = .ok outcome) : r.Settles key outcome := by
  cases r.keyCase key with
  | ignored hignored heq =>
    rw [heq] at h
    obtain rfl := Except.ok.inj h
    exact .ignored hignored
  | unresolved hignored hd heq =>
    rw [heq] at h
    obtain rfl := Except.ok.inj h
    exact .unresolved hignored hd
  | inconsistent hignored heq =>
    rw [heq] at h
    cases h
  | unknownKeypad hignored hrule hname hcode heq =>
    rw [heq] at h
    cases h
  | resolved hignored hrule hkeypad heq =>
    rw [heq] at h
    obtain rfl := Except.ok.inj h
    exact .resolved hignored (isSwapped_of_applyKeypad hkeypad hrule.isBase.isSwapped_eq_false)

/-- What becomes of a key, if it can be resolved. -/
def outcome? (r : Resolver) (key : String × UInt32) : Option KeyOutcome :=
  (r.resolveKey key).outcome.toOption

/-- The entry of a key by itself, before any exchange. -/
def entryFor? (r : Resolver) (key : String × UInt32) : Option Entry :=
  (r.outcome? key).bind KeyOutcome.entryOf?

/-- The diagnostic of a key by itself. -/
def diagnostic? (r : Resolver) (key : String × UInt32) : Option Diagnostic :=
  (r.outcome? key).bind KeyOutcome.diagnosticOf?

theorem outcome?_eq_some_iff {key : String × UInt32} {outcome : KeyOutcome} :
    r.outcome? key = some outcome ↔ (r.resolveKey key).outcome = .ok outcome := by
  unfold outcome?
  cases (r.resolveKey key).outcome with
  | error e => simp [Except.toOption]
  | ok a => simp [Except.toOption]

/-- An entry is one of the key it comes from, which is not to be left out. -/
theorem of_entryFor?_eq_some {key : String × UInt32} {e : Entry} (h : r.entryFor? key = some e) :
    r.overrides.isIgnored key.1 = false ∧ e.resolution.isSwapped = false ∧
      e = ⟨key.1, key.2, e.resolution⟩ := by
  obtain ⟨outcome, houtcome, he⟩ := Option.bind_eq_some_iff.1 h
  cases settles_of_resolveKey (outcome?_eq_some_iff.1 houtcome) with
  | ignored hignored => cases he
  | unresolved hignored hd => cases he
  | resolved hignored hswap =>
    obtain rfl := Option.some.inj he
    exact ⟨hignored, hswap, rfl⟩

/-- A diagnostic names the key it comes from, which is not to be left out. -/
theorem of_diagnostic?_eq_some {key : String × UInt32} {d : Diagnostic}
    (h : r.diagnostic? key = some d) :
    r.overrides.isIgnored key.1 = false ∧ (d = .caseMismatch key.1 ∨ d = .noMatch key.1) := by
  obtain ⟨outcome, houtcome, hd⟩ := Option.bind_eq_some_iff.1 h
  cases settles_of_resolveKey (outcome?_eq_some_iff.1 houtcome) with
  | ignored hignored => cases hd
  | unresolved hignored hnames =>
    obtain rfl := Option.some.inj hd
    exact ⟨hignored, hnames⟩
  | resolved hignored hswap => cases hd

theorem name_of_entryFor? {key : String × UInt32} {e : Entry} (h : r.entryFor? key = some e) :
    e.name = key.1 := by
  rw [(of_entryFor?_eq_some h).2.2]

theorem key_of_diagnostic? {key : String × UInt32} {d : Diagnostic}
    (h : r.diagnostic? key = some d) : d.key = key.1 := by
  obtain ⟨-, rfl | rfl⟩ := of_diagnostic?_eq_some h
  · rfl
  · rfl

/-! ## Several keys -/

/-- Keys resolve if each of them does, by induction on the keys. -/
theorem resolveKeys_outcome_eq_ok_iff {keys : List (String × UInt32)}
    {outcomes : List KeyOutcome} :
    (r.resolveKeys keys).outcome = .ok outcomes ↔ keys.map r.outcome? = outcomes.map some := by
  induction keys generalizing outcomes with
  | nil =>
    constructor
    · intro h
      obtain rfl := Except.ok.inj h
      rfl
    · intro h
      obtain rfl : outcomes = [] := List.map_eq_nil_iff.1 h.symm
      rfl
  | cons key keys ih =>
    rw [resolveKeys, Logged.outcome_bind_eq_ok_iff, List.map_cons]
    constructor
    · rintro ⟨outcome, hkey, h⟩
      obtain ⟨rest, hrest, h⟩ := Logged.outcome_bind_eq_ok_iff.1 h
      obtain rfl := Except.ok.inj h
      rw [outcome?_eq_some_iff.2 hkey, ih.1 hrest, List.map_cons]
    · intro h
      obtain ⟨outcome, rest, rfl, hkey, hrest⟩ := List.map_eq_cons_iff.1 h.symm
      refine ⟨outcome, outcome?_eq_some_iff.1 hkey.symm, ?_⟩
      exact Logged.outcome_bind_eq_ok_iff.2 ⟨rest, ih.2 hrest.symm, rfl⟩

/-- Keys fail as the first one that fails, by induction on the keys. -/
theorem resolveKeys_outcome_eq_error_iff {keys : List (String × UInt32)} {e : ResolveError} :
    (r.resolveKeys keys).outcome = .error e ↔
      ∃ before key after, keys = before ++ key :: after ∧
        (∀ earlier ∈ before, ∃ outcome, (r.resolveKey earlier).outcome = .ok outcome) ∧
        (r.resolveKey key).outcome = .error e := by
  induction keys with
  | nil =>
    constructor
    · intro h
      cases h
    · rintro ⟨before, key, after, h, -⟩
      cases before <;> cases h
  | cons first keys ih =>
    rw [resolveKeys, Logged.outcome_bind_eq_error_iff]
    constructor
    · rintro (h | ⟨outcome, hfirst, h⟩)
      · exact ⟨[], first, keys, rfl, by simp, h⟩
      · -- the first key resolves, so a later one fails
        rcases Logged.outcome_bind_eq_error_iff.1 h with h | ⟨rest, -, h⟩
        · obtain ⟨before, key, after, rfl, hbefore, hkey⟩ := ih.1 h
          refine ⟨first :: before, key, after, rfl, ?_, hkey⟩
          exact List.forall_mem_cons.2 ⟨⟨outcome, hfirst⟩, hbefore⟩
        · cases h
    · rintro ⟨before, key, after, hkeys, hbefore, hkey⟩
      cases before with
      | nil =>
        obtain ⟨rfl, rfl⟩ := List.cons.inj hkeys
        exact .inl hkey
      | cons first' before =>
        obtain ⟨rfl, rfl⟩ := List.cons.inj hkeys
        obtain ⟨⟨outcome, hfirst⟩, hbefore⟩ := List.forall_mem_cons.1 hbefore
        refine .inr ⟨outcome, hfirst, Logged.outcome_bind_eq_error_iff.2 (.inl ?_)⟩
        exact ih.2 ⟨before, key, after, rfl, hbefore, hkey⟩

/-- What the keys yield is what each of them yields by itself. -/
theorem filterMap_of_resolveKeys {α : Type} {keys : List (String × UInt32)}
    {outcomes : List KeyOutcome} (h : (r.resolveKeys keys).outcome = .ok outcomes)
    (g : KeyOutcome → Option α) :
    outcomes.filterMap g = keys.filterMap fun key => (r.outcome? key).bind g := by
  have hmap := congrArg (List.filterMap fun o : Option KeyOutcome => o.bind g)
    (resolveKeys_outcome_eq_ok_iff.1 h)
  rw [List.filterMap_map, List.filterMap_map] at hmap
  exact hmap.symm

end Resolver

end KeyDispatch
