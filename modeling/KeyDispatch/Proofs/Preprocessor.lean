import KeyDispatch.Proofs.Token

/-!
# Preprocessing

Code with directives is read line by line. The state of the preprocessor is the macros defined so
far, all of them with an empty replacement, and the groups of conditional lines that a line stands
in. A line of code stays, less the macros in it, if every group around it takes its present
branch. A conditional block leaves the state as it was and gives the code of the branch taken
(`run_conditional`).
-/

namespace KeyDispatch

open Token

namespace Preprocessor

/-- A group of conditional lines: whether its present branch is taken, and whether that is the
second branch. -/
structure Group where
  taken : Bool
  second : Bool
deriving DecidableEq

/-- The macros defined, and the groups around the present line, the innermost one first. -/
structure State where
  macros : List String
  groups : List Group
deriving DecidableEq

/-- The directives that generated code has. -/
inductive Directive where
  | define (name : String)
  | ifDefined (name : String) (expected : Bool)
  | otherwise
  | endIf
  | includeFile
deriving DecidableEq

/-- The directive of the tokens behind a number sign. The name `defined` cannot be defined. -/
def directive? : List Token → Option Directive
  | [.word "define", .word name] => if name = "defined" then none else some (.define name)
  | [.word "ifndef", .word name] => some (.ifDefined name false)
  | [.word "if", .word "defined", .sign '(', .word name, .sign ')'] => some (.ifDefined name true)
  | [.word "if", .sign '!', .word "defined", .sign '(', .word name, .sign ')'] =>
    some (.ifDefined name false)
  | [.word "else"] => some .otherwise
  | [.word "endif"] => some .endIf
  | .word "include" :: _ => some .includeFile
  | _ => none

namespace State

/-- Every group around the present line takes its present branch. -/
def isLive (s : State) : Bool := s.groups.all (·.taken)

/-- A group opened inside the groups around the present line. -/
def opened (s : State) (taken : Bool) : State := { s with groups := ⟨taken, false⟩ :: s.groups }

/-- What a directive does. -/
def obey (s : State) : Directive → Option State
  | .define name => some (if s.isLive then { s with macros := name :: s.macros } else s)
  | .ifDefined name expected => some (s.opened (decide (name ∈ s.macros) == expected))
  | .otherwise =>
    match s.groups with
    | ⟨taken, false⟩ :: outer => some { s with groups := ⟨!taken, true⟩ :: outer }
    | _ => none
  | .endIf =>
    match s.groups with
    | _ :: outer => some { s with groups := outer }
    | [] => none
  | .includeFile => some s

end State

/-- What a line does to the state, and the code that it leaves. -/
def step (s : State) : List Token → Option (State × List Token)
  | .sign '#' :: rest => ((directive? rest).bind s.obey).map fun s => (s, [])
  | line =>
    some (s, if s.isLive then line.filter fun t => t ∉ s.macros.map Token.word else [])

/-- What lines do in order. -/
def run : State → List (List Token) → Option (State × List Token)
  | s, [] => some (s, [])
  | s, line :: lines =>
    match step s line with
    | none => none
    | some (s', code) => (run s' lines).map fun r => (r.1, code ++ r.2)

/-- The lines of a sequence of tokens, `current` standing on the first one. -/
def splitLines (current : List Token) : List Token → List (List Token)
  | [] => if current = [] then [] else [current]
  | .lineEnd :: ts => current :: splitLines [] ts
  | t :: ts => splitLines (current ++ [t]) ts

/-- The code that preprocessing leaves of a text, if every group is closed. -/
def preprocess (macros : List String) (text : String) : Option (List Token) :=
  match run ⟨macros, []⟩ (splitLines [] (lex text)) with
  | some (⟨_, []⟩, code) => some code
  | _ => none

/-- The line is a directive. -/
def isDirective (line : List Token) : Bool := line.head? == some (.sign '#')

/-- The tokens of a text outside of its directives. -/
def codeTokens (text : String) : List Token :=
  ((splitLines [] (lex text)).filter fun line => !isDirective line).flatten

/-- The tokens of lines, each ended by a line end. -/
def ofLines (lines : List (List Token)) : List Token := lines.flatMap (· ++ [.lineEnd])

/-! ## Lines -/

/-- A line is what stands before a line end. -/
theorem splitLines_append {line : List Token} (h : .lineEnd ∉ line) (current rest : List Token) :
    splitLines current (line ++ .lineEnd :: rest) = (current ++ line) :: splitLines [] rest := by
  induction line generalizing current with
  | nil => rw [List.nil_append, List.append_nil, splitLines]
  | cons t line ih =>
    have ht : t ≠ .lineEnd := fun he => h (he ▸ List.mem_cons_self)
    have hline : .lineEnd ∉ line := fun hm => h (List.mem_cons_of_mem t hm)
    rw [List.cons_append, splitLines, ih hline, List.append_assoc, List.singleton_append]
    exact ht

/-- Lines are found again. -/
theorem splitLines_ofLines {lines : List (List Token)} (h : ∀ line ∈ lines, .lineEnd ∉ line) :
    splitLines [] (ofLines lines) = lines := by
  induction lines with
  | nil => rfl
  | cons line lines ih =>
    have hrest := ih fun l hl => h l (List.mem_cons_of_mem line hl)
    have hline := splitLines_append (h line List.mem_cons_self) [] (ofLines lines)
    show splitLines [] ((line ++ [.lineEnd]) ++ ofLines lines) = line :: lines
    rw [List.append_assoc, List.singleton_append, hline, hrest, List.nil_append]

/-! ## Runs -/

theorem run_append (s : State) (a b : List (List Token)) :
    run s (a ++ b) = (run s a).bind fun r => (run r.1 b).map fun q => (q.1, r.2 ++ q.2) := by
  induction a generalizing s with
  | nil =>
    rw [List.nil_append, run, Option.bind_some]
    cases run s b <;> rfl
  | cons line a ih =>
    rw [List.cons_append, run, run]
    cases step s line with
    | none => rfl
    | some r =>
      simp only [ih]
      cases run r.1 a with
      | none => rfl
      | some q => simp [Function.comp_def, List.append_assoc]

/-- The lines leave the state as it is and give the code. -/
def Leaves (s : State) (lines : List (List Token)) (code : List Token) : Prop :=
  run s lines = some (s, code)

namespace Leaves

variable {s : State} {a b : List (List Token)} {ts us : List Token}

theorem nil : Leaves s [] [] := rfl

theorem append (ha : Leaves s a ts) (hb : Leaves s b us) : Leaves s (a ++ b) (ts ++ us) := by
  unfold Leaves at ha hb ⊢
  rw [run_append, ha, Option.bind_some, hb]
  rfl

theorem flatMap {ι : Type} {items : List ι} {lines : ι → List (List Token)}
    {code : ι → List Token} (h : ∀ i ∈ items, Leaves s (lines i) (code i)) :
    Leaves s (items.flatMap lines) (items.flatMap code) := by
  induction items with
  | nil => exact nil
  | cons i items ih =>
    have hrest := ih fun j hj => h j (List.mem_cons_of_mem i hj)
    rw [List.flatMap_cons, List.flatMap_cons]
    exact (h i List.mem_cons_self).append hrest

/-- A line of code without macros stays as it is. -/
theorem line {line : List Token} (hlive : s.isLive) (hcode : isDirective line = false)
    (hmacros : ∀ m ∈ s.macros, .word m ∉ line) : Leaves s [line] line := by
  -- no token is a macro, so none is left out
  have hkeep : line.filter (fun t => t ∉ s.macros.map Token.word) = line := by
    rw [List.filter_eq_self]
    intro t ht
    rw [decide_eq_true_eq]
    intro hm
    obtain ⟨m, hmem, rfl⟩ := List.mem_map.1 hm
    exact hmacros m hmem ht
  have hstep : step s line = some (s, line) := by
    unfold step
    split
    · cases hcode
    · rw [if_pos hlive, hkeep]
  rw [Leaves, run, hstep]
  simp [run]

/-- A line of code that is not live is dropped. -/
theorem dropped {line : List Token} (hlive : s.isLive = false) (hcode : isDirective line = false) :
    Leaves s [line] [] := by
  have hstep : step s line = some (s, []) := by
    unfold step
    split
    · cases hcode
    · rw [hlive]
      rfl
  rw [Leaves, run, hstep]
  rfl

end Leaves

/-- A block of two branches gives the code of the one that is taken. -/
theorem run_conditional {s : State} {name : String} {expected : Bool} {condition : List Token}
    {first second : List (List Token)} {ts us : List Token}
    (hcondition : directive? condition = some (.ifDefined name expected))
    (hfirst : Leaves (s.opened (decide (name ∈ s.macros) == expected)) first ts)
    (hsecond : Leaves
      { s with groups := ⟨!(decide (name ∈ s.macros) == expected), true⟩ :: s.groups } second us) :
    Leaves s ([.sign '#' :: condition] ++ (first ++ ([lex "#else"] ++ (second ++
      [lex "#endif"])))) (ts ++ us) := by
  -- the three directives open the group, turn to its second branch, and close it
  have hif : step s (.sign '#' :: condition)
      = some (s.opened (decide (name ∈ s.macros) == expected), []) := by
    rw [step, hcondition]
    rfl
  have helse : run (s.opened (decide (name ∈ s.macros) == expected)) [lex "#else"] =
      some ({ s with groups := ⟨!(decide (name ∈ s.macros) == expected), true⟩ :: s.groups }, []) :=
    rfl
  have hend : run { s with
      groups := ⟨!(decide (name ∈ s.macros) == expected), true⟩ :: s.groups } [lex "#endif"]
      = some (s, []) := rfl
  unfold Leaves at hfirst hsecond ⊢
  rw [List.singleton_append, run, hif]
  simp only [run_append, hfirst, helse, hsecond, hend, Option.bind_some, Option.map_some,
    List.nil_append, List.append_nil]

end Preprocessor

end KeyDispatch
