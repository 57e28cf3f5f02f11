import KeyDispatch.Proofs.TableEntries
import KeyDispatch.Proofs.TokenReader

/-!
# Generated Rust programs

A `RustProgram` is what a generated Rust module says: its constants, the arms for characters and
the arms for keys. `RustProgram.run` is its meaning, and `RustProgram.read?` finds the program in
a text. `RustProgram.ofTable` is the program that a table calls for; it answers every key event as
the table does.
-/

namespace KeyDispatch

/-- Conditions of generated expressions: a bit of the modifiers is set that a constant masks, or the
code is compiled for a platform. -/
inductive RustCondition where
  | mask (constant : String)
  | platform (p : Platform)
deriving DecidableEq

/-- Generated expressions. -/
inductive RustExpression where
  | literal (value : UInt32)
  | constant (name : String)
  | choice (condition : RustCondition) (set unset : RustExpression)
deriving DecidableEq

/-- A generated program: constants, the constants of key codes, the function's name, its arms for
single characters and for keys, and what it answers otherwise. -/
structure RustProgram where
  constants : List (String × UInt32)
  keyConstants : List (String × UInt32)
  functionName : String
  textArms : List (UInt32 × UInt32)
  keyArms : List (String × RustExpression)
  otherwise : RustExpression
deriving DecidableEq

/-! ## Meaning -/

/-- The condition holds, if its constant is declared. -/
def RustCondition.holds? (constants : List (String × UInt32)) (bits : UInt32)
    (platform : Platform) : RustCondition → Option Bool
  | .mask name => (constants.lookup name).map fun mask => bits &&& mask != 0
  | .platform p => some (platform = p)

namespace RustExpression

/-- The constants that an expression refers to. -/
def names : RustExpression → List String
  | .literal _ => []
  | .constant name => [name]
  | .choice (.mask name) set unset => name :: (set.names ++ unset.names)
  | .choice (.platform _) set unset => set.names ++ unset.names

/-- Value of an expression, if the constants it needs are declared. -/
def value? (constants : List (String × UInt32)) (bits : UInt32) (platform : Platform) :
    RustExpression → Option UInt32
  | .literal value => some value
  | .constant name => constants.lookup name
  | .choice condition set unset =>
    match condition.holds? constants bits platform with
    | some true => set.value? constants bits platform
    | some false => unset.value? constants bits platform
    | none => none

end RustExpression

namespace RustProgram

/-- The answer to a text of exactly one character that has an arm. -/
def answerText? (p : RustProgram) (text : String) : Option UInt32 :=
  match text.toList with
  | [c] => (p.textArms.find? fun arm => arm.1 == c.val).map (·.2)
  | _ => none

/-- What the first arm yields whose constant has the key's code, or else the last arm. -/
def answerKey (p : RustProgram) (key : UInt32) : RustExpression :=
  match p.keyArms.find? fun arm => p.keyConstants.lookup arm.1 == some key with
  | some arm => arm.2
  | none => p.otherwise

/-- What the function returns for a key event, compiled for a platform. -/
def run (p : RustProgram) (key bits : UInt32) (text : String) (platform : Platform) :
    Option UInt32 :=
  match p.answerText? text with
  | some keysym => some keysym
  | none => (p.answerKey key).value? p.constants bits platform

/-- Every constant is declared once, and no other is referred to. -/
structure WellScoped (p : RustProgram) : Prop where
  constants_nodup : (p.constants.map (·.1)).Nodup
  keyConstants_nodup : (p.keyConstants.map (·.1)).Nodup
  arm_declared : ∀ arm ∈ p.keyArms, arm.1 ∈ p.keyConstants.map (·.1)
  names_declared : ∀ arm ∈ p.keyArms, ∀ name ∈ arm.2.names, name ∈ p.constants.map (·.1)
  otherwise_declared : ∀ name ∈ p.otherwise.names, name ∈ p.constants.map (·.1)

/-! ## Reading -/

section Reading

open Reader Token

/-- A declaration of a constant. -/
def declaration : Reader (String × UInt32) := do
  expect (lex "pub const")
  let constant ← name
  expect (lex ": u32 =")
  let value ← number
  expect (lex ";")
  return (constant, value)

/-- The platform in a condition on the target. -/
def target : Reader Platform := do
  let w ← word
  if w = "target_os" then
    expect (lex "= \"macos\"")
    return .macOS
  else if w = "not" then
    expect (lex "(target_os = \"macos\")")
    return .other
  else failure

/-- A condition. -/
def condition : Reader RustCondition := do
  let w ← word
  if w = "qt_modifiers" then
    expect (lex "&")
    let constant ← name
    expect (lex "!= 0")
    return .mask constant
  else if w = "cfg" then
    expect (lex "!(")
    let p ← target
    expect (lex ")")
    return .platform p
  else failure

/-- An expression in which at most `depth` choices stand inside one another. -/
def expressionWithin : Nat → Reader RustExpression
  | 0 => failure
  | depth + 1 => do
    let w ← word
    match numeral? w with
    | some value => return .literal value
    | none =>
      if w = "if" then
        let c ← condition
        expect (lex "\x7b")
        let set ← expressionWithin depth
        expect (lex "\x7d else \x7b")
        let unset ← expressionWithin depth
        expect (lex "\x7d")
        return .choice c set unset
      else if IsIdentifier w then return .constant w
      else failure

/-- An expression, of any depth: there are not more choices than tokens. -/
def expression : Reader RustExpression := fun ts => expressionWithin ts.length ts

/-- What an arm yields: a block, or an expression and a comma. -/
def armBody : Reader RustExpression :=
  (do
    expect (lex "\x7b")
    let e ← expression
    expect (lex "\x7d")
    return e)
  <|> (do
    let e ← expression
    expect (lex ",")
    return e)

/-- An arm for a character. -/
def textArm : Reader (UInt32 × UInt32) := do
  let position ← number
  expect (lex "=> return")
  let keysym ← number
  expect (lex ",")
  return (position, keysym)

/-- An arm for a key. -/
def keyArm : Reader (String × RustExpression) := do
  expect (lex "qt_key::")
  let constant ← name
  expect (lex "=>")
  let e ← armBody
  return (constant, e)

/-- A program. -/
def program : Reader RustProgram := do
  let constants ← manyUntil declaration
    (lex "#[allow(non_upper_case_globals, dead_code)] pub mod qt_key \x7b")
  let keyConstants ← manyUntil declaration (lex "\x7d")
  expect (lex "#[allow(unreachable_patterns, unused_variables)] pub fn")
  let functionName ← name
  expect (lex "(qt_key: u32, qt_modifiers: u32, text: &str) -> u32 \x7b")
  expect (lex "let mut chars = text.chars();")
  expect (lex "if let (Some(c), None) = (chars.next(), chars.next()) \x7b")
  expect (lex "match u32::from(c) \x7b")
  let textArms ← manyUntil textArm (lex "_ => \x7b\x7d \x7d \x7d")
  expect (lex "match qt_key \x7b")
  let keyArms ← manyUntil keyArm (lex "_ =>")
  let otherwise ← expression
  expect (lex ", \x7d \x7d")
  return ⟨constants, keyConstants, functionName, textArms, keyArms, otherwise⟩

/-- The program that a text is. -/
def read? (text : String) : Option RustProgram := readAll? program (code (lex text))

end Reading

end RustProgram

/-! ## The program of a table -/

/-- Expression of a resolution's value. -/
def RustExpression.ofResolution : Resolution → RustExpression
  | .fixed keysym => .literal keysym.code
  | .shift lower upper =>
    .choice (.mask Modifier.shift.constant) (.literal upper.code) (.literal lower.code)
  | .keypad plain onKeypad =>
    .choice (.mask Modifier.keypad.constant) (.literal onKeypad.code) (.literal plain.code)
  | .swapped normal exchanged platform =>
    .choice (.platform platform) (ofResolution exchanged) (ofResolution normal)

namespace RustProgram

/-- The constants that every program declares beside those of key codes. -/
def commonConstants : List (String × UInt32) :=
  [(Modifier.shift.constant, Modifier.shift.mask), (Modifier.keypad.constant, Modifier.keypad.mask),
    ("NO_KEYSYM", Keysym.none.code)]

/-- The program of a table. -/
def ofTable (functionName : String) (t : DecisionTable) : RustProgram where
  constants := commonConstants
  keyConstants := t.entries.toList.map fun e => (e.constant, e.toolkitCode)
  functionName := functionName
  textArms := t.textCases.toList.map fun p => (p.1, p.2.code)
  keyArms := t.entries.toList.map fun e => (e.constant, .ofResolution e.resolution)
  otherwise := .constant "NO_KEYSYM"

/-- A choice by a modifier's constant is one by the modifier. -/
theorem value?_choice_mask (m : Modifier) (set unset : Keysym) (bits : UInt32)
    (platform : Platform) :
    (RustExpression.choice (.mask m.constant) (.literal set.code) (.literal unset.code)).value?
      commonConstants bits platform = some (if m.isSet bits then set else unset).code := by
  have hmask : commonConstants.lookup m.constant = some m.mask := by
    cases m <;> decide
  have hholds : (RustCondition.mask m.constant).holds? commonConstants bits platform
      = some (m.isSet bits) := by
    rw [RustCondition.holds?, hmask]
    rfl
  rw [RustExpression.value?, hholds]
  cases m.isSet bits <;> rfl

/-- The expression of a resolution has the keysym's code as its value, by induction on the
resolution: the choice by platform takes the side that the resolution takes. -/
theorem value?_ofResolution (r : Resolution) (bits : UInt32) (platform : Platform) :
    (RustExpression.ofResolution r).value? commonConstants bits platform
      = some (r.evaluate bits platform).code := by
  induction r with
  | fixed keysym => rfl
  | shift lower upper => exact value?_choice_mask .shift upper lower bits platform
  | keypad plain onKeypad => exact value?_choice_mask .keypad onKeypad plain bits platform
  | swapped normal exchanged target ihn ihe =>
    rw [RustExpression.ofResolution, RustExpression.value?, RustCondition.holds?,
      Resolution.evaluate]
    by_cases h : platform = target
    · rw [decide_eq_true h, if_pos h]
      exact ihe
    · rw [decide_eq_false h, if_neg h]
      exact ihn

/-- It refers to no other constants. -/
theorem names_ofResolution {r : Resolution} {name : String}
    (h : name ∈ (RustExpression.ofResolution r).names) : name ∈ commonConstants.map (·.1) := by
  induction r with
  | fixed keysym => cases h
  | shift lower upper =>
    obtain rfl := List.mem_singleton.1 h
    decide
  | keypad plain onKeypad =>
    obtain rfl := List.mem_singleton.1 h
    decide
  | swapped normal exchanged target ihn ihe =>
    rcases List.mem_append.1 h with h | h
    · exact ihe h
    · exact ihn h

/-- A table's program answers a text as the table's keysyms of characters do. -/
theorem answerText?_ofTable (name : String) (t : DecisionTable) (text : String) :
    (ofTable name t).answerText? text = (t.dispatchText? text).map (·.code) := by
  have harms : ∀ position : UInt32,
      ((ofTable name t).textArms.find? fun arm => arm.1 == position).map (·.2)
        = (t.textCases.get? position).map (·.code) := by
    intro position
    show ((t.textCases.toList.map _).find? _).map _ = _
    rw [List.find?_map]
    -- an arm is found where its entry is
    show ((t.textCases.toList.find? fun e => e.1 == position).map _).map _ = _
    rw [SortedMap.find?_toList, Option.map_map, Option.map_map]
    rfl
  unfold answerText? DecisionTable.dispatchText?
  -- no character, one, or more than one
  rcases text.toList with _ | ⟨c, _ | ⟨d, rest⟩⟩
  · rfl
  · exact harms c.val
  · rfl

/-- The constant of an entry has the code of its key. -/
theorem lookup_keyConstants {name : String} {t : DecisionTable}
    (hnames : (t.entries.toList.map (·.name)).Nodup) {e : Entry} (he : e ∈ t.entries.toList) :
    (ofTable name t).keyConstants.lookup e.constant = some e.toolkitCode := by
  show (t.entries.toList.map fun e => (e.constant, e.toolkitCode)).lookup e.constant = _
  generalize t.entries.toList = entries at hnames he
  induction entries with
  | nil => cases he
  | cons first rest ih =>
    rw [List.map_cons, List.nodup_cons] at hnames
    rw [List.map_cons, List.lookup_cons]
    by_cases heq : e = first
    · rw [heq, beq_self_eq_true]
    · have hrest : e ∈ rest := (List.mem_cons.1 he).resolve_left heq
      -- the constant declared first is another one, since its name is
      have hne : (e.constant == first.constant) = false := by
        rw [beq_eq_false_iff_ne]
        intro hc
        refine hnames.1 (List.mem_map.2 ⟨e, hrest, ?_⟩)
        exact Entry.constant_inj.1 hc
      rw [hne]
      exact ih hnames.2 hrest

/-- The first arm for a key is that of the first entry with its code. -/
theorem answerKey_ofTable {name : String} {t : DecisionTable}
    (hnames : (t.entries.toList.map (·.name)).Nodup) (key : UInt32) :
    (ofTable name t).answerKey key =
      match t.entries.toList.find? fun e => e.toolkitCode == key with
      | some e => .ofResolution e.resolution
      | none => .constant "NO_KEYSYM" := by
  -- to look a label's constant up is to compare the code of its entry
  have harms : (ofTable name t).keyArms.find?
        (fun arm => (ofTable name t).keyConstants.lookup arm.1 == some key)
      = (t.entries.toList.find? fun e => e.toolkitCode == key).map
          fun e => (e.constant, .ofResolution e.resolution) := by
    show (t.entries.toList.map _).find? _ = _
    rw [List.find?_map]
    refine congrArg _ (List.find?_congr ?_)
    intro e he
    simp only [Function.comp_apply]
    rw [lookup_keyConstants hnames he]
    rfl
  unfold answerKey
  rw [harms]
  cases t.entries.toList.find? fun e => e.toolkitCode == key <;> rfl

/-- A table's program answers every key event as the table does. -/
theorem run_ofTable {name : String} {t : DecisionTable}
    (hnames : (t.entries.toList.map (·.name)).Nodup) (key bits : UInt32) (text : String)
    (platform : Platform) :
    (ofTable name t).run key bits text platform
      = some ((t.dispatch key bits text platform).getD Keysym.none).code := by
  have hkey : ((ofTable name t).answerKey key).value? (ofTable name t).constants bits platform
      = some ((t.dispatchKey key bits platform).getD Keysym.none).code := by
    rw [answerKey_ofTable hnames, DecisionTable.dispatchKey]
    cases t.entries.toList.find? fun e => e.toolkitCode == key with
    | none => rfl
    | some e => exact value?_ofResolution e.resolution bits platform
  rw [run, answerText?_ofTable, DecisionTable.dispatch_eq_or]
  cases t.dispatchText? text with
  | some keysym => rfl
  | none => exact hkey

/-- A table's program declares what it refers to, and everything once. -/
theorem wellScoped_ofTable {name : String} {t : DecisionTable}
    (hnames : (t.entries.toList.map (·.name)).Nodup) : (ofTable name t).WellScoped where
  constants_nodup := by
    show (commonConstants.map (·.1)).Nodup
    decide
  keyConstants_nodup := by
    show ((t.entries.toList.map _).map _).Nodup
    -- the prefix keeps different names apart
    have hinj : Function.Injective fun name => "Key_" ++ name :=
      fun _ _ h => (String.append_right_inj "Key_").1 h
    have := hnames.map hinj
    rw [List.map_map] at this ⊢
    exact this
  arm_declared := by
    intro arm harm
    obtain ⟨e, he, rfl⟩ := List.mem_map.1 harm
    exact List.mem_map.2 ⟨_, List.mem_map_of_mem he, rfl⟩
  names_declared := by
    intro arm harm name hname
    obtain ⟨e, -, rfl⟩ := List.mem_map.1 harm
    exact names_ofResolution hname
  otherwise_declared := by
    intro name hname
    obtain rfl := List.mem_singleton.1 hname
    show "NO_KEYSYM" ∈ commonConstants.map (·.1)
    decide

end RustProgram

end KeyDispatch
