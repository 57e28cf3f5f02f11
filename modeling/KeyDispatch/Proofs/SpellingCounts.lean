import KeyDispatch.Proofs.Spellings

/-!
# The index of spellings as a count

An index counts the different spellings of each lowercase form: it looks up the only one, marks a
form with two or more, and its sizes are the numbers of the forms of either kind. All of this is
about the set of the names, so neither their order nor a repetition counts, and a form that is
marked once stays marked.
-/

namespace KeyDispatch

open Text (lowercase)

/-- The size of a map is the number of its keys. -/
theorem SortedMap.size_eq_card {κ β : Type} [Ord κ] [Std.TransOrd κ] [Std.LawfulEqOrd κ]
    [DecidableEq κ] {m : SortedMap κ β} {keys : Finset κ}
    (h : ∀ k, k ∈ keys ↔ m.contains k = true) : m.size = keys.card := by
  have hnodup : (m.toList.map Prod.fst).Nodup := by
    rw [List.Nodup, List.pairwise_map]
    exact m.keys_ne
  have hkeys : keys = (m.toList.map Prod.fst).toFinset := by
    ext k
    rw [h, List.mem_toFinset, contains, Option.isSome_iff_exists]
    simp only [get?_eq_some_iff, List.mem_map, Prod.exists, exists_and_right, exists_eq_right]
  rw [hkeys, List.toFinset_card_of_nodup hnodup, List.length_map, size]

/-- Sets with the same members are equal. -/
theorem SortedMap.ext_contains {κ : Type} [Ord κ] [Std.TransOrd κ] [Std.LawfulEqOrd κ]
    {s t : SortedMap κ Unit} (h : ∀ k, s.contains k = true ↔ t.contains k = true) : s = t := by
  have hget : ∀ (u : SortedMap κ Unit) (k : κ), u.get? k = some () ↔ u.contains k = true := by
    intro u k
    rw [SortedMap.contains, Option.isSome_iff_exists, Unique.exists_iff]
  apply SortedMap.ext_get?
  intro k
  apply Option.ext
  rintro ⟨⟩
  rw [hget, hget, h]

namespace CaseIndex

/-! ## Spellings -/

/-- The different spellings of a lowercase form among some names. -/
def spellings (names : List String) (folded : String) : Finset String :=
  {name ∈ names.toFinset | lowercase name = folded}

/-- The lowercase forms of some names. -/
def forms (names : List String) : Finset String := (names.map lowercase).toFinset

section Names

variable {names : List String} {folded name : String}

theorem mem_spellings : name ∈ spellings names folded ↔ name ∈ names ∧ lowercase name = folded := by
  rw [spellings, Finset.mem_filter, List.mem_toFinset]

theorem only_iff_spellings_eq : Only names folded name ↔ spellings names folded = {name} := by
  simp only [Finset.eq_singleton_iff_unique_mem, mem_spellings, Only, and_imp, and_assoc]

theorem several_iff_card : Several names folded ↔ 2 ≤ (spellings names folded).card := by
  rw [← Nat.lt_iff_add_one_le, Finset.one_lt_card]
  constructor
  · rintro ⟨a, ha, b, hb, hfa, hfb, hab⟩
    exact ⟨a, mem_spellings.2 ⟨ha, hfa⟩, b, mem_spellings.2 ⟨hb, hfb⟩, hab⟩
  · rintro ⟨a, ha, b, hb, hab⟩
    obtain ⟨ha, hfa⟩ := mem_spellings.1 ha
    obtain ⟨hb, hfb⟩ := mem_spellings.1 hb
    exact ⟨a, ha, b, hb, hfa, hfb, hab⟩

/-- Only the forms of the names have spellings. -/
theorem mem_forms_of_card_pos (h : 0 < (spellings names folded).card) : folded ∈ forms names := by
  obtain ⟨name, hname⟩ := Finset.card_pos.1 h
  obtain ⟨hmem, rfl⟩ := mem_spellings.1 hname
  exact List.mem_toFinset.2 (List.mem_map_of_mem hmem)

end Names

/-! ## Counts -/

/-- The index counts the spellings of the lowercase forms. -/
structure Counts (index : CaseIndex) (names : List String) : Prop where
  lookup_iff : ∀ query name,
    index.lookup query = some name ↔ spellings names (lowercase query) = {name}
  isNonUnique_iff : ∀ query,
    index.isNonUnique query = true ↔ 2 ≤ (spellings names (lowercase query)).card
  size_eq : index.size = {folded ∈ forms names | (spellings names folded).card = 1}.card
  nonUniqueSize_eq :
    index.nonUniqueSize = {folded ∈ forms names | 2 ≤ (spellings names folded).card}.card
  not_both : ∀ folded,
    ¬ (index.unique.contains folded = true ∧ index.nonUnique.contains folded = true)

namespace Describes

variable {index index' : CaseIndex} {names names' : List String}

theorem contains_unique_iff (h : index.Describes names) {folded : String} :
    index.unique.contains folded = true ↔ (spellings names folded).card = 1 := by
  rw [SortedMap.contains, Option.isSome_iff_exists, Finset.card_eq_one]
  simp only [h.unique_iff, only_iff_spellings_eq]

theorem contains_nonUnique_iff (h : index.Describes names) {folded : String} :
    index.nonUnique.contains folded = true ↔ 2 ≤ (spellings names folded).card := by
  rw [h.nonUnique_iff, several_iff_card]

theorem counts (h : index.Describes names) : index.Counts names where
  lookup_iff query name := by
    rw [lookup, h.unique_iff, only_iff_spellings_eq]
  isNonUnique_iff query := h.contains_nonUnique_iff
  size_eq := by
    apply SortedMap.size_eq_card
    intro folded
    rw [Finset.mem_filter, h.contains_unique_iff]
    exact and_iff_right_of_imp fun hone => mem_forms_of_card_pos (by omega)
  nonUniqueSize_eq := by
    apply SortedMap.size_eq_card
    intro folded
    rw [Finset.mem_filter, h.contains_nonUnique_iff]
    exact and_iff_right_of_imp fun htwo => mem_forms_of_card_pos (by omega)
  not_both folded := by
    rw [h.contains_unique_iff, h.contains_nonUnique_iff]
    omega

/-- The set of the names decides the index. -/
theorem eq_of_toFinset_eq (h : index.Describes names) (h' : index'.Describes names')
    (hnames : names.toFinset = names'.toFinset) : index = index' := by
  have hspellings : ∀ folded, spellings names folded = spellings names' folded := by
    intro folded
    rw [spellings, spellings, hnames]
  have hunique : index.unique = index'.unique := by
    apply SortedMap.ext_get?
    intro folded
    apply Option.ext
    intro name
    rw [h.unique_iff, h'.unique_iff, only_iff_spellings_eq, only_iff_spellings_eq, hspellings]
  have hnonUnique : index.nonUnique = index'.nonUnique := by
    apply SortedMap.ext_contains
    intro folded
    rw [h.contains_nonUnique_iff, h'.contains_nonUnique_iff, hspellings]
  cases index
  cases index'
  cases hunique
  cases hnonUnique
  rfl

end Describes

/-- The set of the names decides the index of a list. -/
theorem ofNames_eq_of_toFinset_eq {names names' : List String}
    (h : names.toFinset = names'.toFinset) : ofNames names = ofNames names' :=
  (describes_ofNames names).eq_of_toFinset_eq (describes_ofNames names') h

theorem record_ofNames_of_mem {names : List String} {name : String} (h : name ∈ names) :
    (ofNames names).record name = ofNames names := by
  rw [← ofNames_append_singleton]
  apply ofNames_eq_of_toFinset_eq
  rw [List.toFinset_append, List.toFinset_cons, List.toFinset_nil]
  exact Finset.union_eq_left.2 (by simpa using h)

/-- A form with several spellings is never looked up again, whatever is recorded. -/
theorem isNonUnique_append {names more : List String} {query : String}
    (h : (ofNames names).isNonUnique query = true) :
    (ofNames (names ++ more)).isNonUnique query = true ∧
      (ofNames (names ++ more)).lookup query = none := by
  have hcounts := (describes_ofNames names).counts
  have hmore := (describes_ofNames (names ++ more)).counts
  have hsubset : spellings names (lowercase query) ⊆ spellings (names ++ more) (lowercase query) := by
    intro name hname
    obtain ⟨hmem, hfold⟩ := mem_spellings.1 hname
    exact mem_spellings.2 ⟨List.mem_append_left more hmem, hfold⟩
  have htwo : 2 ≤ (spellings (names ++ more) (lowercase query)).card :=
    ((hcounts.isNonUnique_iff query).1 h).trans (Finset.card_le_card hsubset)
  refine ⟨(hmore.isNonUnique_iff query).2 htwo, ?_⟩
  apply Option.eq_none_iff_forall_ne_some.2
  intro name hlookup
  rw [(hmore.lookup_iff query name).1 hlookup, Finset.card_singleton] at htwo
  exact absurd htwo (by decide)

/-- The index of any names counts their spellings. Recording a name again changes nothing, a form
with several spellings is never looked up again, and the order of the names does not count. -/
theorem ofNames_counts (names : List String) :
    (ofNames names).Counts names ∧
      (∀ name ∈ names, (ofNames names).record name = ofNames names) ∧
      (∀ query, (ofNames names).isNonUnique query = true → ∀ more,
        (ofNames (names ++ more)).isNonUnique query = true ∧
          (ofNames (names ++ more)).lookup query = none) ∧
      ∀ names', names'.Perm names → ofNames names' = ofNames names :=
  ⟨(describes_ofNames names).counts, fun _ => record_ofNames_of_mem,
    fun _ h _ => isNonUnique_append h,
    fun _ h => ofNames_eq_of_toFinset_eq (List.toFinset_eq_of_perm _ _ h)⟩

end CaseIndex

end KeyDispatch
