import KeyDispatch.Artifact.CppHeader
import KeyDispatch.Proofs.Preprocessor
import KeyDispatch.Proofs.TableEntries
import KeyDispatch.Proofs.TokenReader

/-!
# Generated C++ functions

A `CppFunction` is what a generated header says once the preprocessor has chosen a platform: a
switch on a text of one UTF-16 unit and a switch on the key. `CppFunction.run` is its meaning,
given what the toolkit's enumerators stand for, and `CppFunction.read?` finds the function in a
text. `CppFunction.ofTable` is the function that a table calls for on a platform; it answers every
key event as the table does, except that it does not see a single character beyond one unit.
-/

namespace KeyDispatch

/-- Statements of a case: an answer, or a choice between two by a modifier's enumerator. -/
inductive CppStatement where
  | answer (keysym : UInt32)
  | choice (enumerator : String) (set unset : UInt32)
deriving DecidableEq

/-- A generated function: its name, the cases of text units, and the cases of the toolkit's
enumerators. -/
structure CppFunction where
  functionName : String
  textCases : List (UInt32 × UInt32)
  keyCases : List (String × CppStatement)
deriving DecidableEq

/-! ## Texts in UTF-16 -/

/-- The UTF-16 units of a character. -/
def utf16Char (c : Char) : List UInt16 :=
  if c.val ≤ 0xFFFF then [c.val.toUInt16]
  else [(0xD800 + (c.val - 0x10000) / 0x400).toUInt16,
    (0xDC00 + (c.val - 0x10000) % 0x400).toUInt16]

/-- The UTF-16 units of a text. -/
def utf16 (text : String) : List UInt16 := text.toList.flatMap utf16Char

/-- The text, or the empty one if it is a single character of more than one unit. -/
def withoutAstral (text : String) : String :=
  match text.toList with
  | [c] => if c.val ≤ 0xFFFF then text else ""
  | _ => text

/-- Only a single character of more than one unit is no text. -/
theorem withoutAstral_eq {text : String} (h : ∀ c, text.toList = [c] → c.val ≤ 0xFFFF) :
    withoutAstral text = text := by
  unfold withoutAstral
  split
  · rename_i c hc
    rw [if_pos (h c hc)]
  · rfl

/-! ## Meaning -/

/-- What the toolkit's enumerators stand for: masks of modifiers, and codes of keys. -/
def enumeratorValue? (toolkit : ToolkitTable) (name : String) : Option UInt32 :=
  match [Modifier.shift, Modifier.keypad].find? fun m => m.enumerator == "Qt::" ++ name with
  | some m => some m.mask
  | none => (strip? "Key_".toList name.toList).bind fun key => toolkit.code? (String.ofList key)

/-- The answer of a statement, if its enumerator is known. -/
def CppStatement.value? (value? : String → Option UInt32) (bits : UInt32) :
    CppStatement → Option UInt32
  | .answer keysym => some keysym
  | .choice enumerator set unset =>
    (value? enumerator).map fun mask => if bits &&& mask != 0 then set else unset

namespace CppFunction

/-- The cases of keys with the values of their labels, if all enumerators are known. -/
def keyLabels? (f : CppFunction) (value? : String → Option UInt32) :
    Option (List (UInt32 × CppStatement)) :=
  f.keyCases.mapM fun c => (value? c.1).map fun code => (code, c.2)

/-- The answer to a text of exactly one unit that has a case. -/
def answerText? (f : CppFunction) (units : List UInt16) : Option UInt32 :=
  match units with
  | [u] => (f.textCases.find? fun c => c.1 == u.toUInt32).map (·.2)
  | _ => none

/-- What the function returns. A switch with two equal labels is none. -/
def run (f : CppFunction) (value? : String → Option UInt32) (key bits : UInt32)
    (units : List UInt16) : Option UInt32 :=
  match f.keyLabels? value? with
  | none => none
  | some labels =>
    if (labels.map (·.1)).Nodup ∧ (f.textCases.map (·.1)).Nodup then
      match f.answerText? units with
      | some keysym => some keysym
      | none =>
        match labels.find? fun c => c.1 == key with
        | some c => c.2.value? value? bits
        | none => some 0
    else none

/-! ## Reading -/

section Reading

open Reader Token

/-- A statement that returns a number. -/
def returnStatement : Reader UInt32 := do
  expect (lex "return")
  let keysym ← number
  expect (lex ";")
  return keysym

/-- The statement of a case. -/
def statement : Reader CppStatement :=
  (do
    expect (lex "if (qtModifiers & Qt::")
    let enumerator ← name
    expect (lex ") \x7b")
    let set ← returnStatement
    expect (lex "\x7d else \x7b")
    let unset ← returnStatement
    expect (lex "\x7d")
    return .choice enumerator set unset)
  <|> (do
    let keysym ← returnStatement
    return .answer keysym)

/-- A case of a text unit. -/
def textCase : Reader (UInt32 × UInt32) := do
  expect (lex "case")
  let position ← number
  expect (lex ":")
  let keysym ← returnStatement
  return (position, keysym)

/-- A case of a key. -/
def keyCase : Reader (String × CppStatement) := do
  expect (lex "case Qt::")
  let enumerator ← name
  expect (lex ":")
  let s ← statement
  return (enumerator, s)

/-- A function. -/
def function : Reader CppFunction := do
  expect (lex "inline int")
  let functionName ← name
  expect (lex "(int qtKey, int qtModifiers, const QString& text) \x7b")
  expect (lex "if (text.size() == 1) \x7b switch (text.unicode()[0].unicode()) \x7b")
  let textCases ← manyUntil textCase (lex "default: break; \x7d \x7d")
  expect (lex "switch (qtKey) \x7b")
  let keyCases ← manyUntil keyCase (lex "default: return 0; \x7d \x7d")
  return ⟨functionName, textCases, keyCases⟩

/-- The macros that are defined on a platform beforehand. -/
def platformMacros : Platform → List String
  | .macOS => ["Q_OS_OSX"]
  | .other => []

/-- The function that a header is on a platform. -/
def read? (platform : Platform) (text : String) : Option CppFunction :=
  (Preprocessor.preprocess (platformMacros platform) text).bind (readAll? function)

end Reading

end CppFunction

/-! ## The function of a table -/

/-- Statement of a resolution on a platform. -/
def CppStatement.ofResolution (platform : Platform) : Resolution → CppStatement
  | .fixed keysym => .answer keysym.code
  | .shift lower upper => .choice "ShiftModifier" upper.code lower.code
  | .keypad plain onKeypad => .choice "KeypadModifier" onKeypad.code plain.code
  | .swapped normal exchanged target =>
    if platform = target then ofResolution platform exchanged else ofResolution platform normal

namespace CppFunction

/-- The function of a table on a platform. -/
def ofTable (name : String) (platform : Platform) (t : DecisionTable) : CppFunction where
  functionName := name
  textCases := (t.textCases.toList.filter fun p => CppHeader.isUnit p.1).map
    fun p => (p.1, p.2.code)
  keyCases := t.entries.toList.map
    fun e => (e.constant, CppStatement.ofResolution platform e.resolution)

variable {toolkit : ToolkitTable} {t : DecisionTable}

theorem enumeratorValue?_shift :
    enumeratorValue? toolkit "ShiftModifier" = some Modifier.shift.mask := rfl

theorem enumeratorValue?_keypad :
    enumeratorValue? toolkit "KeypadModifier" = some Modifier.keypad.mask := rfl

/-- A key's enumerator stands for the code that the toolkit has for the key. -/
theorem enumeratorValue?_constant (e : Entry) :
    enumeratorValue? toolkit e.constant = toolkit.code? e.name := by
  have hchars : e.constant.toList = "Key_".toList ++ e.name.toList := e.toList_constant
  have hmodifier : [Modifier.shift, Modifier.keypad].find?
      (fun m => m.enumerator == "Qt::" ++ e.constant) = none := by
    have hne : ∀ m : Modifier, m.enumerator ≠ "Qt::" ++ e.constant := by
      intro m hm
      -- the eighth character of a key's enumerator is the underscore
      have hlist := congrArg (fun s => (s.toList.drop 7).head?) hm
      have hkey : (("Qt::" ++ e.constant).toList.drop 7).head? = some '_' := by
        rw [String.toList_append, hchars]
        rfl
      rw [hkey] at hlist
      cases m <;> exact absurd hlist (by decide)
    simp [hne]
  rw [enumeratorValue?, hmodifier]
  simp only
  rw [hchars, strip?_append, Option.bind_some, String.ofList_toList]

/-- A statement answers with the keysym that the resolution has on the platform, by induction on the
resolution. -/
theorem value?_ofResolution (platform : Platform) (r : Resolution) (bits : UInt32) :
    (CppStatement.ofResolution platform r).value? (enumeratorValue? toolkit) bits
      = some (r.evaluate bits platform).code := by
  induction r with
  | fixed keysym => rfl
  | shift lower upper =>
    rw [CppStatement.ofResolution, CppStatement.value?, enumeratorValue?_shift, Option.map_some,
      Resolution.evaluate, Modifier.isSet, apply_ite Keysym.code]
  | keypad plain onKeypad =>
    rw [CppStatement.ofResolution, CppStatement.value?, enumeratorValue?_keypad, Option.map_some,
      Resolution.evaluate, Modifier.isSet, apply_ite Keysym.code]
  | swapped normal exchanged target ihn ihe =>
    rw [CppStatement.ofResolution, Resolution.evaluate]
    by_cases h : platform = target
    · rw [if_pos h, if_pos h]
      exact ihe
    · rw [if_neg h, if_neg h]
      exact ihn

/-- The labels of a table's function are the codes of the entries' keys. -/
theorem keyLabels?_ofTable (hlists : t.Lists toolkit) (name : String) (platform : Platform) :
    (ofTable name platform t).keyLabels? (enumeratorValue? toolkit)
      = some (t.entries.toList.map
          fun e => (e.toolkitCode, CppStatement.ofResolution platform e.resolution)) := by
  have hlabel : ∀ e ∈ t.entries.toList,
      enumeratorValue? toolkit e.constant = some e.toolkitCode := by
    intro e he
    rw [enumeratorValue?_constant, hlists.code?_name he]
  unfold keyLabels? ofTable
  simp only
  generalize t.entries.toList = entries at hlabel
  induction entries with
  | nil => rfl
  | cons e entries ih =>
    have hrest := ih fun e' he' => hlabel e' (List.mem_cons_of_mem e he')
    rw [List.map_cons, List.mapM_cons, hrest, hlabel e List.mem_cons_self]
    rfl

/-- A unit is the character it encodes. -/
theorem toUInt32_toUInt16 {n : UInt32} (h : n ≤ 0xFFFF) : n.toUInt16.toUInt32 = n := by
  have hlt : n.toNat ≤ 0xFFFF := UInt32.le_iff_toNat_le.1 h
  apply UInt32.toNat_inj.1
  rw [UInt16.toNat_toUInt32, UInt32.toNat_toUInt16]
  omega

theorem utf16Char_ne_nil (c : Char) : utf16Char c ≠ [] := by
  unfold utf16Char
  split
  · exact List.cons_ne_nil _ _
  · exact List.cons_ne_nil _ _

/-- A table's function answers a text in UTF-16 as the table's keysyms of characters do, but for a
single character of two units. -/
theorem answerText?_ofTable (name : String) (platform : Platform) (t : DecisionTable)
    (text : String) : (ofTable name platform t).answerText? (utf16 text)
      = (t.dispatchText? (withoutAstral text)).map (·.code) := by
  have hcases : ∀ position : UInt32, position ≤ 0xFFFF →
      ((ofTable name platform t).textCases.find? fun c => c.1 == position).map (·.2)
        = (t.textCases.get? position).map (·.code) := by
    intro position hposition
    -- cases beyond one unit are left out, and no unit asks for them
    have hfilter : (t.textCases.toList.filter fun p => CppHeader.isUnit p.1).find?
          (fun p => p.1 == position) = t.textCases.toList.find? fun p => p.1 == position := by
      rw [List.find?_filter]
      apply List.find?_congr
      intro p _
      by_cases hp : p.1 = position
      · simp [CppHeader.isUnit, hp, hposition]
      · simp [hp]
    show (((t.textCases.toList.filter _).map _).find? _).map _ = _
    rw [List.find?_map]
    show (((t.textCases.toList.filter _).find? fun p => p.1 == position).map _).map _ = _
    rw [hfilter, SortedMap.find?_toList, Option.map_map, Option.map_map]
    rfl
  unfold answerText? utf16 withoutAstral
  -- no character, one, or more than one
  rcases h : text.toList with _ | ⟨c, _ | ⟨d, rest⟩⟩
  · simp [DecisionTable.dispatchText?, h]
  · by_cases hc : c.val ≤ 0xFFFF
    -- one character of one unit
    · have hunits : [c].flatMap utf16Char = [c.val.toUInt16] := by
        simp [utf16Char, hc]
      rw [hunits]
      simp only [if_pos hc, DecisionTable.dispatchText?, h]
      rw [toUInt32_toUInt16 hc]
      exact hcases c.val hc
    -- one character of two units: the text switch is not entered, and the empty text has no case
    · simp [utf16Char, hc, DecisionTable.dispatchText?]
  · obtain ⟨u, us, hu⟩ := List.exists_cons_of_ne_nil (utf16Char_ne_nil c)
    obtain ⟨v, vs, hv⟩ := List.exists_cons_of_ne_nil (utf16Char_ne_nil d)
    simp only [List.flatMap_cons, hu, hv, List.cons_append, DecisionTable.dispatchText?, h]
    cases us <;> rfl

/-- On its platform a table's function answers every key event as the table does, a single character
of two units being no text to it. -/
theorem run_ofTable (hlists : t.Lists toolkit)
    (hcodes : (t.entries.toList.map (·.toolkitCode)).Nodup) (name : String) (platform : Platform)
    (key bits : UInt32) (text : String) :
    (ofTable name platform t).run (enumeratorValue? toolkit) key bits (utf16 text)
      = some ((t.dispatch key bits (withoutAstral text) platform).getD Keysym.none).code := by
  -- no two labels of either switch are equal
  have hkeys : ((t.entries.toList.map fun e =>
      (e.toolkitCode, CppStatement.ofResolution platform e.resolution)).map (·.1)).Nodup := by
    rw [List.map_map]
    exact hcodes
  have htexts : ((ofTable name platform t).textCases.map (·.1)).Nodup := by
    show (((t.textCases.toList.filter _).map _).map _).Nodup
    rw [List.map_map, List.Nodup, List.pairwise_map]
    exact t.textCases.keys_ne.filter _
  have hkey : (match (t.entries.toList.map fun e =>
        (e.toolkitCode, CppStatement.ofResolution platform e.resolution)).find? (·.1 == key) with
      | some c => c.2.value? (enumeratorValue? toolkit) bits
      | none => some 0) = some ((t.dispatchKey key bits platform).getD Keysym.none).code := by
    have hfind : (t.entries.toList.map fun e =>
          (e.toolkitCode, CppStatement.ofResolution platform e.resolution)).find? (·.1 == key)
        = (t.entries.toList.find? fun e => e.toolkitCode == key).map
            fun e => (e.toolkitCode, CppStatement.ofResolution platform e.resolution) := by
      rw [List.find?_map]
      rfl
    rw [hfind, DecisionTable.dispatchKey]
    cases t.entries.toList.find? fun e => e.toolkitCode == key with
    | none => rfl
    | some e => exact value?_ofResolution platform e.resolution bits
  rw [run, keyLabels?_ofTable hlists]
  simp only
  rw [if_pos ⟨hkeys, htexts⟩, answerText?_ofTable, DecisionTable.dispatch_eq_or]
  cases t.dispatchText? (withoutAstral text) with
  | some keysym => rfl
  | none => exact hkey

end CppFunction

end KeyDispatch
