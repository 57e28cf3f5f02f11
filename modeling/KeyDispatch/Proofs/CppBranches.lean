import KeyDispatch.Proofs.CppLines

/-!
# Branches of the generated C++ header

What preprocessing leaves of a header's lines. The include guard becomes a macro, a block of a
choice by platform leaves the branch for the platform that the macros tell
(`CppFunction.leaves_blockLines`), and all lines together leave the function on this platform
(`CppFunction.run_headerLines`), as long as no macro is a word of the code.
-/

namespace KeyDispatch

namespace CppFunction

open Token Preprocessor

/-- The platform that the macros tell. -/
def seenPlatform (macros : List String) : Platform :=
  if "Q_OS_OSX" ∈ macros then .macOS else .other

/-- No macro is a word of a line of code. -/
def Clear (macros : List String) (lines : List (List Token)) : Prop :=
  ∀ line ∈ lines, isDirective line = false → ∀ m ∈ macros, .word m ∉ line

namespace Clear

variable {macros : List String} {a b : List (List Token)}

theorem append : Clear macros (a ++ b) ↔ Clear macros a ∧ Clear macros b :=
  List.forall_mem_append

theorem flatMap {ι : Type} {items : List ι} {lines : ι → List (List Token)}
    (h : Clear macros (items.flatMap lines)) {i : ι} (hi : i ∈ items) : Clear macros (lines i) :=
  fun line hline => h line (List.mem_flatMap.2 ⟨i, hi, hline⟩)

/-- A line of code stays if it is live. -/
theorem leaves {s : State} {line : List Token} (h : Clear s.macros [line])
    (hcode : isDirective line = false) : Leaves s [line] (if s.isLive then line else []) := by
  cases hlive : s.isLive with
  | true => exact Leaves.line hlive hcode (h line List.mem_cons_self hcode)
  | false => exact Leaves.dropped hlive hcode

end Clear

/-- A block leaves the branch for the platform that the macros tell, if it is live. -/
theorem leaves_blockLines {s : State} (target : Platform) {first second : List (List Token)}
    {ts us : List Token}
    (hfirst : ∀ s' : State, s'.macros = s.macros → Leaves s' first (if s'.isLive then ts else []))
    (hsecond : ∀ s' : State, s'.macros = s.macros →
      Leaves s' second (if s'.isLive then us else [])) :
    Leaves s (blockLines target first second)
      (if s.isLive then (if seenPlatform s.macros = target then ts else us) else []) := by
  have hcondition : directive? (conditionTokens target)
      = some (.ifDefined "Q_OS_OSX" (decide (target = .macOS))) := by
    cases target <;> decide
  -- the first branch is taken where the macros tell the target
  have htaken : (decide ("Q_OS_OSX" ∈ s.macros) == decide (target = .macOS))
      = decide (seenPlatform s.macros = target) := by
    unfold seenPlatform
    by_cases hq : "Q_OS_OSX" ∈ s.macros
    · cases target <;> simp [hq]
    · cases target <;> simp [hq]
  have hall := run_conditional hcondition (hfirst _ rfl) (hsecond _ rfl)
  rw [htaken] at hall
  refine Eq.trans hall (congrArg (fun code => some (s, code)) ?_)
  -- inside the block a line is live if the block is and its branch is taken
  have hopened : ∀ taken : Bool, (s.opened taken).isLive = (taken && s.isLive) := fun _ => rfl
  have hother : ∀ taken : Bool,
      State.isLive { s with groups := ⟨taken, true⟩ :: s.groups } = (taken && s.isLive) :=
    fun _ => rfl
  rw [hopened, hother]
  by_cases h : seenPlatform s.macros = target
  · cases s.isLive <;> simp [h]
  · cases s.isLive <;> simp [h]

/-- The lines of a resolution's statement leave the statement on the platform that the macros tell,
by induction on the resolution. -/
theorem leaves_statementLines (r : Resolution) {s : State}
    (h : Clear s.macros (statementLines r)) :
    Leaves s (statementLines r)
      (if s.isLive then statementTokens (seenPlatform s.macros) r else []) := by
  induction r generalizing s with
  | fixed keysym => exact h.leaves rfl
  | shift lower upper => exact h.leaves rfl
  | keypad plain onKeypad => exact h.leaves rfl
  | swapped normal exchanged target ihn ihe =>
    unfold statementLines blockLines at h
    simp only [Clear.append] at h
    obtain ⟨-, ⟨-, hexchanged, -, hnormal, -⟩, -⟩ := h
    -- a blank line leaves nothing, live or not
    have hblank : Leaves s [[]] [] := by
      cases hlive : s.isLive with
      | true => exact Leaves.line hlive rfl fun m _ => List.not_mem_nil
      | false => exact Leaves.dropped hlive rfl
    have hblock := leaves_blockLines (s := s) target
      (fun s' hs' => hs' ▸ ihe (hs'.symm ▸ hexchanged))
      (fun s' hs' => hs' ▸ ihn (hs'.symm ▸ hnormal))
    have hall := hblank.append (hblock.append hblank)
    rw [List.nil_append, List.append_nil] at hall
    exact hall

theorem leaves_keyCaseLines {s : State} (hlive : s.isLive) {e : Entry}
    (h : Clear s.macros (keyCaseLines e)) :
    Leaves s (keyCaseLines e) (keyCaseTokens (seenPlatform s.macros) e) := by
  have hline : ∀ {ts : List Token}, Clear s.macros [labelTokens e ++ ts] →
      Leaves s [labelTokens e ++ ts] (labelTokens e ++ ts) := by
    intro ts hts
    have := hts.leaves rfl
    rwa [if_pos hlive] at this
  unfold keyCaseLines at h ⊢
  unfold keyCaseTokens
  cases hr : e.resolution with
  | fixed keysym =>
    rw [hr] at h
    exact hline h
  | shift lower upper =>
    rw [hr] at h
    exact hline h
  | keypad plain onKeypad =>
    rw [hr] at h
    exact hline h
  | swapped normal exchanged target =>
    rw [hr] at h
    unfold blockLines at h
    simp only [Clear.append] at h
    obtain ⟨hlabel, -, hexchanged, -, hnormal, -⟩ := h
    have hblock := leaves_blockLines (s := s) target
      (fun s' hs' => hs' ▸ leaves_statementLines exchanged (hs'.symm ▸ hexchanged))
      (fun s' hs' => hs' ▸ leaves_statementLines normal (hs'.symm ▸ hnormal))
    have hfirst := hlabel.leaves rfl
    rw [if_pos hlive] at hblock hfirst
    exact hfirst.append hblock

/-- The lines of a table's function leave the function on the platform that the macros tell. -/
theorem leaves_functionLines {s : State} (hlive : s.isLive) {name : String} {t : DecisionTable}
    (h : Clear s.macros (functionLines name t)) :
    Leaves s (functionLines name t) (functionTokens name (seenPlatform s.macros) t) := by
  -- lines without directives stay as they are
  have hlines : ∀ {lines : List (List Token)}, Clear s.macros lines →
      (∀ line ∈ lines, isDirective line = false) → Leaves s lines lines.flatten := by
    intro lines hclear hcode
    induction lines with
    | nil => exact Leaves.nil
    | cons line lines ih =>
      obtain ⟨hfirst, hrest⟩ := Clear.append.1 (show Clear s.macros ([line] ++ lines) from hclear)
      have hline := hfirst.leaves (hcode line List.mem_cons_self)
      rw [if_pos hlive] at hline
      exact hline.append (ih hrest fun l hl => hcode l (List.mem_cons_of_mem line hl))
  unfold functionLines at h ⊢
  simp only [Clear.append] at h
  obtain ⟨hhead, hopen, htexts, hmiddle, hkeys, hend⟩ := h
  have hall := (hlines hhead (fun line hl => by rw [List.mem_singleton.1 hl]; rfl)).append
    ((hlines hopen (by decide)).append
    ((Leaves.flatMap fun p hp => hlines (htexts.flatMap hp)
      (fun line hl => by rw [List.mem_singleton.1 hl]; rfl)).append
    ((hlines hmiddle (by decide)).append
    ((Leaves.flatMap fun e he => leaves_keyCaseLines hlive (hkeys.flatMap he)).append
    (hlines hend (by decide))))))
  have hopenTokens : [lex "\x7b", lex "if (text.size() == 1) \x7b",
      lex "switch (text.unicode()[0].unicode()) \x7b"].flatten
      = lex "\x7b if (text.size() == 1) \x7b switch (text.unicode()[0].unicode()) \x7b" := by
    decide
  have hmiddleTokens : [lex "default: break;", lex "\x7d", lex "\x7d",
      lex "switch (qtKey) \x7b"].flatten
      = lex "default: break; \x7d \x7d" ++ lex "switch (qtKey) \x7b" := by
    decide
  have hendTokens : [lex "default: return 0;", lex "\x7d", lex "\x7d"].flatten
      = lex "default: return 0; \x7d \x7d" := by
    decide
  rw [hopenTokens, hmiddleTokens, hendTokens] at hall
  unfold functionTokens
  simp only [List.flatten_cons, List.flatten_nil, List.append_nil, List.append_assoc] at hall ⊢
  exact hall

/-- The include guard opens a group and becomes a macro. -/
theorem run_includeLines {macros : List String} {guardName : String} (hguard : guardName ∉ macros)
    (hdefined : guardName ≠ "defined") :
    Preprocessor.run ⟨macros, []⟩ (includeLines guardName)
      = some (⟨guardName :: macros, [⟨true, false⟩]⟩, []) := by
  -- the guard is not defined yet, so the group that it opens is live
  have hifndef : Preprocessor.step ⟨macros, []⟩ [.sign '#', .word "ifndef", .word guardName]
      = some (⟨macros, [⟨true, false⟩]⟩, []) := by
    simp only [Preprocessor.step, directive?, Option.bind_some, State.obey, State.opened, hguard,
      decide_false]
    rfl
  have hdefine : Preprocessor.step ⟨macros, [⟨true, false⟩]⟩
      [.sign '#', .word "define", .word guardName]
      = some (⟨guardName :: macros, [⟨true, false⟩]⟩, []) := by
    simp only [Preprocessor.step, directive?, if_neg hdefined, Option.bind_some, State.obey]
    rfl
  have hrest : Preprocessor.run ⟨guardName :: macros, [⟨true, false⟩]⟩ [[],
      lex "#include <QtCore/qnamespace.h>", lex "#include <QtCore/qstring.h>", []]
      = some (⟨guardName :: macros, [⟨true, false⟩]⟩, []) := rfl
  unfold includeLines
  rw [Preprocessor.run, hifndef]
  simp only
  rw [Preprocessor.run, hdefine]
  simp only
  rw [hrest]
  rfl

/-- Preprocessing leaves of a header's lines the function on the platform that the macros tell once
the guard is one of them. -/
theorem run_headerLines {macros : List String} {h : CppHeader} {t : DecisionTable}
    (hguard : h.includeGuard ∉ macros) (hdefined : h.includeGuard ≠ "defined")
    (hclear : Clear (h.includeGuard :: macros) (functionLines h.functionName t)) :
    Preprocessor.run ⟨macros, []⟩ (headerLines h t) = some (⟨h.includeGuard :: macros, []⟩,
      functionTokens h.functionName (seenPlatform (h.includeGuard :: macros)) t) := by
  have hblank : Preprocessor.run ⟨macros, []⟩ [[], []] = some (⟨macros, []⟩, []) := rfl
  have hfunction : Leaves ⟨h.includeGuard :: macros, [⟨true, false⟩]⟩ _ _ :=
    leaves_functionLines rfl hclear
  have hend : Preprocessor.run ⟨h.includeGuard :: macros, [⟨true, false⟩]⟩ [lex "#endif"]
      = some (⟨h.includeGuard :: macros, []⟩, []) := rfl
  unfold Leaves at hfunction
  unfold headerLines
  simp only [Preprocessor.run_append, hblank, run_includeLines hguard hdefined, hfunction, hend,
    Option.bind_some, Option.map_some, List.nil_append, List.append_nil]

end CppFunction

end KeyDispatch
