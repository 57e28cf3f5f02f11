import KeyDispatch.CaseIndex
import Mathlib.Tactic

/-!
# What the index of spellings knows

A lowercase form has only one spelling among some names, or several, or none. An index of spellings
is in step with a list of names when it answers exactly that for every form. Recording a name keeps
it in step (`Describes.record`), so the index of a list of names describes the list
(`describes_ofNames`).
-/

namespace KeyDispatch.CaseIndex

open Text (lowercase)

/-- The index of a list of names, recorded from first to last. -/
def ofNames (names : List String) : CaseIndex := names.foldl record empty

/-- `name` is the one spelling of `folded` among `names`. -/
def Only (names : List String) (folded name : String) : Prop :=
  name ∈ names ∧ lowercase name = folded ∧ ∀ other ∈ names, lowercase other = folded → other = name

/-- `folded` has two spellings among `names`. -/
def Several (names : List String) (folded : String) : Prop :=
  ∃ a ∈ names, ∃ b ∈ names, lowercase a = folded ∧ lowercase b = folded ∧ a ≠ b

section Names

variable {names : List String} {folded name spelling : String}

theorem Only.unique (h : Only names folded name) (h' : Only names folded spelling) :
    name = spelling := h'.2.2 name h.1 h.2.1

theorem Only.not_several (h : Only names folded name) : ¬ Several names folded := by
  rintro ⟨a, ha, b, hb, hfa, hfb, hab⟩
  exact hab ((h.2.2 a ha hfa).trans (h.2.2 b hb hfb).symm)

/-- A form that occurs has one spelling or several. -/
theorem only_or_several (hmem : name ∈ names) (hfold : lowercase name = folded) :
    Only names folded name ∨ Several names folded := by
  by_cases hall : ∀ other ∈ names, lowercase other = folded → other = name
  · exact .inl ⟨hmem, hfold, hall⟩
  · push Not at hall
    obtain ⟨other, ho, hof, hne⟩ := hall
    exact .inr ⟨other, ho, name, hmem, hof, hfold, hne⟩

/-- Another name says nothing about forms that are not its own. -/
theorem only_append_of_ne (h : lowercase name ≠ folded) :
    Only (names ++ [name]) folded spelling ↔ Only names folded spelling := by
  constructor
  · rintro ⟨hmem, hfold, hall⟩
    refine ⟨?_, hfold, fun other ho => hall other (by simp [ho])⟩
    rcases List.mem_append.1 hmem with hmem | hmem
    · exact hmem
    · exact absurd (List.mem_singleton.1 hmem ▸ hfold) h
  · rintro ⟨hmem, hfold, hall⟩
    refine ⟨by simp [hmem], hfold, ?_⟩
    intro other ho hof
    rcases List.mem_append.1 ho with ho | ho
    · exact hall other ho hof
    · exact absurd (List.mem_singleton.1 ho ▸ hof) h

theorem several_append_of_ne (h : lowercase name ≠ folded) :
    Several (names ++ [name]) folded ↔ Several names folded := by
  have old {x : String} (hx : x ∈ names ++ [name]) (hfx : lowercase x = folded) : x ∈ names := by
    rcases List.mem_append.1 hx with hx | hx
    · exact hx
    · exact absurd (List.mem_singleton.1 hx ▸ hfx) h
  constructor
  · rintro ⟨a, ha, b, hb, hfa, hfb, hab⟩
    exact ⟨a, old ha hfa, b, old hb hfb, hfa, hfb, hab⟩
  · rintro ⟨a, ha, b, hb, hfa, hfb, hab⟩
    exact ⟨a, by simp [ha], b, by simp [hb], hfa, hfb, hab⟩

/-- Several spellings stay several. -/
theorem Several.append (h : Several names folded) (name : String) :
    Several (names ++ [name]) folded := by
  obtain ⟨a, ha, b, hb, hfa, hfb, hab⟩ := h
  exact ⟨a, by simp [ha], b, by simp [hb], hfa, hfb, hab⟩

/-- A form that did not occur gets the new name as its one spelling. -/
theorem only_append_of_not_mem (h : ∀ other ∈ names, lowercase other ≠ lowercase name) :
    Only (names ++ [name]) (lowercase name) name := by
  refine ⟨by simp, rfl, ?_⟩
  intro other ho hof
  rcases List.mem_append.1 ho with ho | ho
  · exact absurd hof (h other ho)
  · exact List.mem_singleton.1 ho

/-- The one spelling of a form may occur again. -/
theorem Only.append_self (h : Only names folded name) : Only (names ++ [name]) folded name := by
  refine ⟨by simp, h.2.1, ?_⟩
  intro other ho hof
  rcases List.mem_append.1 ho with ho | ho
  · exact h.2.2 other ho hof
  · exact List.mem_singleton.1 ho

/-- A second spelling of a form makes several. -/
theorem Only.several_append (h : Only names (lowercase name) spelling) (hne : spelling ≠ name) :
    Several (names ++ [name]) (lowercase name) :=
  ⟨spelling, by simp [h.1], name, by simp, h.2.1, rfl, hne⟩

end Names

/-- The index says of every lowercase form what `names` says of it. -/
structure Describes (index : CaseIndex) (names : List String) : Prop where
  unique_iff : ∀ folded name, index.unique.get? folded = some name ↔ Only names folded name
  nonUnique_iff : ∀ folded, index.nonUnique.contains folded = true ↔ Several names folded

namespace Describes

variable {index : CaseIndex} {names : List String}

theorem empty : CaseIndex.empty.Describes [] where
  unique_iff folded name := by
    show (none : Option String) = some name ↔ _
    simp [Only]
  nonUnique_iff folded := by
    show (none : Option Unit).isSome = true ↔ _
    simp [Several]

/-- A form that the index does not know does not occur. -/
theorem not_mem (h : index.Describes names) {folded : String}
    (hu : index.unique.get? folded = none) (hn : ¬ index.nonUnique.contains folded = true) :
    ∀ name ∈ names, lowercase name ≠ folded := by
  intro name hmem hfold
  rcases only_or_several hmem hfold with honly | hseveral
  · rw [(h.unique_iff folded name).2 honly] at hu
    cases hu
  · exact hn ((h.nonUnique_iff folded).2 hseveral)

/-- One more name can only change the answers for its own form. -/
theorem of_own_form {index' : CaseIndex} {name : String} (h : index.Describes names)
    (hu : ∀ folded, folded ≠ lowercase name →
      index'.unique.get? folded = index.unique.get? folded)
    (hn : ∀ folded, folded ≠ lowercase name →
      index'.nonUnique.contains folded = index.nonUnique.contains folded)
    (ownUnique : ∀ spelling, index'.unique.get? (lowercase name) = some spelling ↔
      Only (names ++ [name]) (lowercase name) spelling)
    (ownNonUnique : index'.nonUnique.contains (lowercase name) = true ↔
      Several (names ++ [name]) (lowercase name)) :
    index'.Describes (names ++ [name]) := by
  constructor
  · intro folded spelling
    by_cases hf : folded = lowercase name
    · subst hf
      exact ownUnique spelling
    · rw [hu folded hf, h.unique_iff, only_append_of_ne (Ne.symm hf)]
  · intro folded
    by_cases hf : folded = lowercase name
    · subst hf
      exact ownNonUnique
    · rw [hn folded hf, h.nonUnique_iff, several_append_of_ne (Ne.symm hf)]

/-- Recording a name keeps the index in step. -/
theorem record (h : index.Describes names) (name : String) :
    (index.record name).Describes (names ++ [name]) := by
  simp only [CaseIndex.record]
  split
  -- the form is marked already
  · rename_i hn
    have hs : Several names (lowercase name) := (h.nonUnique_iff _).1 hn
    refine h.of_own_form (fun _ _ => rfl) (fun _ _ => rfl) ?_ (iff_of_true hn (hs.append name))
    intro spelling
    rw [h.unique_iff]
    exact iff_of_false (fun ho => ho.not_several hs) fun ho => ho.not_several (hs.append name)
  · rename_i hn
    split
    -- the form is new
    · rename_i hu
      have ho : Only (names ++ [name]) (lowercase name) name :=
        only_append_of_not_mem (h.not_mem hu hn)
      refine h.of_own_form ?_ (fun _ _ => rfl) ?_ (iff_of_false hn ho.not_several)
      · intro folded hf
        rw [SortedMap.get?_insert, if_neg hf]
      · intro spelling
        rw [SortedMap.get?_insert, if_pos rfl]
        exact ⟨fun e => Option.some.inj e ▸ ho, fun ho' => congrArg some (ho.unique ho')⟩
    · rename_i spelling hu
      have ho : Only names (lowercase name) spelling := (h.unique_iff _ _).1 hu
      split
      -- the form has this spelling already
      · rename_i he
        subst he
        refine h.of_own_form (fun _ _ => rfl) (fun _ _ => rfl) ?_
          (iff_of_false hn ho.append_self.not_several)
        intro other
        rw [h.unique_iff]
        exact ⟨fun ho' => ho.unique ho' ▸ ho.append_self,
          fun ho' => ho.append_self.unique ho' ▸ ho⟩
      -- the form has another spelling
      · rename_i hne
        have hs : Several (names ++ [name]) (lowercase name) := ho.several_append hne
        refine h.of_own_form ?_ ?_ ?_
          (iff_of_true ((SortedMap.contains_insert _ _ _ _).2 (.inl rfl)) hs)
        · intro folded hf
          rw [SortedMap.get?_erase, if_neg hf]
        · intro folded hf
          rw [Bool.eq_iff_iff, SortedMap.contains_insert]
          exact or_iff_right hf
        · intro other
          rw [SortedMap.get?_erase, if_pos rfl]
          exact iff_of_false (by simp) fun ho' => ho'.not_several hs

end Describes

/-- The index after more names, recorded one at a time. -/
theorem describes_foldl {index : CaseIndex} {names : List String} (h : index.Describes names)
    (more : List String) : (more.foldl record index).Describes (names ++ more) := by
  induction more generalizing index names with
  | nil => simpa using h
  | cons name more ih => simpa using ih (h.record name)

/-- The index of a list of names says of every form what the list says. -/
theorem describes_ofNames (names : List String) : (ofNames names).Describes names := by
  simpa [ofNames] using describes_foldl Describes.empty names

theorem ofNames_append_singleton (names : List String) (name : String) :
    ofNames (names ++ [name]) = (ofNames names).record name := by
  simp [ofNames]

/-- A look-up answers with the one spelling of the name's form. -/
theorem lookup_ofNames_iff {names : List String} {query name : String} :
    (ofNames names).lookup query = some name ↔ Only names (lowercase query) name :=
  (describes_ofNames names).unique_iff _ _

/-- A name is not unique if its form has several spellings. -/
theorem isNonUnique_ofNames_iff {names : List String} {query : String} :
    (ofNames names).isNonUnique query = true ↔ Several names (lowercase query) :=
  (describes_ofNames names).nonUnique_iff _

end KeyDispatch.CaseIndex
