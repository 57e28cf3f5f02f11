import KeyDispatch.Config
import KeyDispatch.Proofs.LastWins

/-!
# Layers of overrides

Extensions put over overrides one after another are layers, and the topmost layer that has an entry
for a key counts. Names are looked up in one stack of maps and keypad keysyms in another, while
ignored keys add up and the pair that trades places stays (`Overrides.IsLayered`). So layers may be
merged into one extension before they are put over the base (`Overrides.extend_eq_extendAll`). What a
layer reports is what it replaces in the overrides below it (`Overrides.events_extend`). The main
statement is `Overrides.extendAll_composes`.
-/

namespace KeyDispatch

/-! ## Stacks of maps -/

namespace SortedMap

/-- A map with others put over it, the last one topmost. -/
def stack (m : SortedMap String String) (maps : List (SortedMap String String)) :
    SortedMap String String :=
  maps.foldl (fun m upper => m.insertMany upper.toList) m

/-- Entries put over a map hide the ones of the same keys below. -/
theorem get?_insertMany_toList (m upper : SortedMap String String) (key : String) :
    (m.insertMany upper.toList).get? key = (upper.get? key).or (m.get? key) := by
  apply Option.ext
  intro value
  rw [get?_insertMany_eq_some_iff upper.keys_ne, ← get?_eq_some_iff]
  cases hupper : upper.get? key with
  | none =>
    have hnone : ∀ e ∈ upper.toList, e.1 ≠ key := by
      rintro e he rfl
      rw [get?_eq_some_iff.2 he] at hupper
      cases hupper
    rw [Option.none_or, or_iff_right (by simp), and_iff_right hnone]
  | some v =>
    have hsome : ¬ ∀ e ∈ upper.toList, e.1 ≠ key := fun h =>
      h (key, v) (get?_eq_some_iff.1 hupper) rfl
    rw [Option.some_or, or_iff_left fun h => hsome h.1]

section Stack

variable {m upper : SortedMap String String} {maps : List (SortedMap String String)}
  {key value : String}

/-- A stack answers from what was put over the lowest map, and then from that map. -/
theorem get?_stack (m : SortedMap String String) (maps : List (SortedMap String String))
    (key : String) : (m.stack maps).get? key = ((empty.stack maps).get? key).or (m.get? key) := by
  -- by induction on the maps, for any map in the place of the lowest one
  induction maps generalizing m with
  | nil => rfl
  | cons upper maps ih =>
    show ((m.insertMany upper.toList).stack maps).get? key =
      (((empty.insertMany upper.toList).stack maps).get? key).or (m.get? key)
    rw [ih, ih (empty.insertMany upper.toList), get?_insertMany_toList, get?_insertMany_toList,
      get?_empty, Option.or_none, Option.or_assoc]

/-- A value stands under the key in the topmost map that has the key, or no map has it and the value
is the one below. -/
inductive TopValue (maps : List (SortedMap String String)) (below : Option String)
    (key value : String) : Prop where
  | last (h : HasLast (·.get? key = some value) (·.contains key = true) maps)
  | below (hnone : ∀ m ∈ maps, m.contains key = false) (h : below = some value)

theorem topValue_nil_iff {below : Option String} :
    TopValue [] below key value ↔ below = some value := by
  constructor
  · rintro (h | ⟨-, h⟩)
    · exact absurd h not_hasLast_nil
    · exact h
  · exact fun h => .below (fun _ hm => nomatch hm) h

/-- The lowest of the maps may be taken to what is below. -/
theorem topValue_cons_iff {below : Option String} :
    TopValue (upper :: maps) below key value ↔
      TopValue maps ((upper.get? key).or below) key value := by
  constructor
  · rintro (h | ⟨hnone, h⟩)
    · rcases hasLast_cons_iff.1 h with h | ⟨hupper, hmaps⟩
      · exact .last h
      · refine .below (fun m hm => Bool.eq_false_iff.2 (hmaps m hm)) ?_
        rw [hupper, Option.some_or]
    · obtain ⟨hupper, hmaps⟩ := List.forall_mem_cons.1 hnone
      refine .below hmaps ?_
      rw [Option.not_isSome_iff_eq_none.1 (Bool.eq_false_iff.1 hupper), Option.none_or, h]
  · rintro (h | ⟨hmaps, h⟩)
    · exact .last (hasLast_cons_iff.2 (.inl h))
    -- no other map has the key, so this one decides
    · cases hupper : upper.get? key with
      | none =>
        rw [hupper, Option.none_or] at h
        have hnone : upper.contains key = false := by rw [contains, hupper, Option.isSome_none]
        exact .below (List.forall_mem_cons.2 ⟨hnone, hmaps⟩) h
      | some v =>
        rw [hupper, Option.some_or] at h
        obtain rfl := Option.some.inj h
        have hlast : ∀ m ∈ maps, ¬ m.contains key = true :=
          fun m hm => Bool.eq_false_iff.1 (hmaps m hm)
        exact .last (hasLast_cons_iff.2 (.inr ⟨hupper, hlast⟩))

theorem get?_stack_eq_some_iff :
    (m.stack maps).get? key = some value ↔ TopValue maps (m.get? key) key value := by
  induction maps generalizing m with
  | nil => exact topValue_nil_iff.symm
  | cons upper maps ih =>
    rw [topValue_cons_iff, ← get?_insertMany_toList]
    exact ih

/-- A map put over itself is that map. -/
theorem topValue_self_iff : TopValue [m, m] none key value ↔ m.get? key = some value := by
  rw [topValue_cons_iff, topValue_cons_iff, topValue_nil_iff, Option.or_none, Option.or_self]

/-- A map with the topmost values of some maps does what they do in turn. -/
theorem insertMany_eq_stack
    (h : ∀ key value, upper.get? key = some value ↔ TopValue maps none key value) :
    m.insertMany upper.toList = m.stack maps := by
  have hupper : upper = empty.stack maps := by
    apply ext_get?
    intro key
    apply Option.ext
    intro value
    rw [h, get?_stack_eq_some_iff, get?_empty]
  apply ext_get?
  intro key
  rw [get?_insertMany_toList, get?_stack, hupper]

end Stack

end SortedMap

open SortedMap (TopValue)

namespace Extensions

/-- The extension holds what some layers hold together: of each kind of entry the topmost one of
each key, and all ignored keys. -/
structure Merges (e : Extensions) (layers : List Extensions) : Prop where
  alternative_iff : ∀ key name, e.alternativeNames.get? key = some name ↔
    TopValue (layers.map (·.alternativeNames)) .none key name
  keypad_iff : ∀ key name, e.keypad.get? key = some name ↔
    TopValue (layers.map (·.keypad)) .none key name
  ignored_iff : ∀ key, key ∈ e.ignored ↔ ∃ layer ∈ layers, key ∈ layer.ignored

/-- The layers as one extension. -/
def merged (layers : List Extensions) : Extensions :=
  ⟨.stack .empty (layers.map (·.alternativeNames)), .stack .empty (layers.map (·.keypad)),
    layers.flatMap (·.ignored)⟩

theorem merged_merges (layers : List Extensions) : (merged layers).Merges layers where
  alternative_iff _ _ := SortedMap.get?_stack_eq_some_iff
  keypad_iff _ _ := SortedMap.get?_stack_eq_some_iff
  ignored_iff _ := List.mem_flatMap

theorem merges_self (e : Extensions) : e.Merges [e, e] where
  alternative_iff _ _ := SortedMap.topValue_self_iff.symm
  keypad_iff _ _ := SortedMap.topValue_self_iff.symm
  ignored_iff key := by simp

end Extensions

namespace Overrides

/-! ## One layer -/

theorem overlay_fst (report : String → String → String → Event) (m : SortedMap String String)
    (entries : List (String × String)) :
    (overlay report m entries).1 = m.insertMany entries := by
  induction entries generalizing m with
  | nil => rfl
  | cons e entries ih => exact ih (m.insert e.1 e.2)

theorem contains_addNames {s : SortedMap String Unit} {names : List String} {key : String} :
    (addNames s names).contains key = true ↔ s.contains key = true ∨ key ∈ names := by
  induction names generalizing s with
  | nil => simp [addNames]
  | cons name names ih =>
    show (addNames (s.insert name ()) names).contains key = true ↔ _
    rw [ih, SortedMap.contains_insert, List.mem_cons, or_comm (a := key = name), or_assoc]

section Extend

variable (o : Overrides) (e : Extensions)

theorem alternativeNames_extend :
    (o.extend e).1.alternativeNames = o.alternativeNames.insertMany e.alternativeNames.toList :=
  overlay_fst _ _ _

theorem keypad_extend : (o.extend e).1.keypad = o.keypad.insertMany e.keypad.toList :=
  overlay_fst _ _ _

theorem isIgnored_extend (key : String) :
    (o.extend e).1.isIgnored key = true ↔ o.isIgnored key = true ∨ key ∈ e.ignored :=
  contains_addNames

end Extend

/-- Overrides that give the same answers are equal. -/
theorem ext_answers {o p : Overrides}
    (halternative : ∀ key, o.alternative? key = p.alternative? key)
    (hkeypad : ∀ key, o.keypad? key = p.keypad? key)
    (hignored : ∀ key, o.isIgnored key = true ↔ p.isIgnored key = true) (hswap : o.swap = p.swap) :
    o = p := by
  obtain ⟨alternativeNames, keypad, ignored, swap⟩ := o
  obtain ⟨alternativeNames', keypad', ignored', swap'⟩ := p
  obtain rfl : alternativeNames = alternativeNames' := SortedMap.ext_get? halternative
  obtain rfl : keypad = keypad' := SortedMap.ext_get? hkeypad
  obtain rfl : ignored = ignored' := SortedMap.ext_contains hignored
  obtain rfl : swap = swap' := hswap
  rfl

/-! ## Layers -/

/-- Overrides with layers put over them in turn. -/
def extendAll (base : Overrides) (layers : List Extensions) : Overrides :=
  layers.foldl (fun o e => (o.extend e).1) base

/-- Every answer is that of the topmost layer which has one, or else the base's; a key is ignored
if the base or any layer ignores it, and the pair that trades places is the base's. -/
structure IsLayered (o base : Overrides) (layers : List Extensions) : Prop where
  alternative_iff : ∀ key name, o.alternative? key = some name ↔
    TopValue (layers.map (·.alternativeNames)) (base.alternative? key) key name
  keypad_iff : ∀ key name, o.keypad? key = some name ↔
    TopValue (layers.map (·.keypad)) (base.keypad? key) key name
  isIgnored_iff : ∀ key, o.isIgnored key = true ↔
    base.isIgnored key = true ∨ ∃ layer ∈ layers, key ∈ layer.ignored
  swap_eq : o.swap = base.swap

section Layers

variable {base : Overrides} {layers : List Extensions} {e : Extensions}

/-- The maps of the layers are put over the base's as the layers are. -/
theorem entries_extendAll {entries : Overrides → SortedMap String String}
    {added : Extensions → SortedMap String String}
    (h : ∀ o e, entries (o.extend e).1 = (entries o).insertMany (added e).toList)
    (base : Overrides) (layers : List Extensions) :
    entries (base.extendAll layers) = (entries base).stack (layers.map added) := by
  induction layers generalizing base with
  | nil => rfl
  | cons e layers ih =>
    refine (ih (base.extend e).1).trans ?_
    rw [h]
    rfl

theorem alternativeNames_extendAll (base : Overrides) (layers : List Extensions) :
    (base.extendAll layers).alternativeNames =
      base.alternativeNames.stack (layers.map (·.alternativeNames)) :=
  entries_extendAll alternativeNames_extend base layers

theorem keypad_extendAll (base : Overrides) (layers : List Extensions) :
    (base.extendAll layers).keypad = base.keypad.stack (layers.map (·.keypad)) :=
  entries_extendAll keypad_extend base layers

theorem isIgnored_extendAll (base : Overrides) (layers : List Extensions) (key : String) :
    (base.extendAll layers).isIgnored key = true ↔
      base.isIgnored key = true ∨ ∃ layer ∈ layers, key ∈ layer.ignored := by
  induction layers generalizing base with
  | nil => simp [extendAll]
  | cons e layers ih =>
    refine (ih (base.extend e).1).trans ?_
    simp only [isIgnored_extend, List.mem_cons, exists_eq_or_imp, or_assoc]

theorem swap_extendAll (base : Overrides) (layers : List Extensions) :
    (base.extendAll layers).swap = base.swap := by
  induction layers generalizing base with
  | nil => rfl
  | cons e layers ih => exact ih (base.extend e).1

theorem isLayered_extendAll (base : Overrides) (layers : List Extensions) :
    (base.extendAll layers).IsLayered base layers where
  alternative_iff key name := by
    rw [alternative?, alternativeNames_extendAll]
    exact SortedMap.get?_stack_eq_some_iff
  keypad_iff key name := by
    rw [keypad?, keypad_extendAll]
    exact SortedMap.get?_stack_eq_some_iff
  isIgnored_iff := isIgnored_extendAll base layers
  swap_eq := swap_extendAll base layers

/-- One extension that merges the layers does what they do in turn. -/
theorem extend_eq_extendAll (h : e.Merges layers) : (base.extend e).1 = base.extendAll layers := by
  apply ext_answers
  · intro key
    rw [alternative?, alternative?, alternativeNames_extend, alternativeNames_extendAll,
      SortedMap.insertMany_eq_stack h.alternative_iff]
  · intro key
    rw [keypad?, keypad?, keypad_extend, keypad_extendAll,
      SortedMap.insertMany_eq_stack h.keypad_iff]
  · intro key
    rw [isIgnored_extend, isIgnored_extendAll, h.ignored_iff]
  · exact (swap_extendAll base layers).symm

/-- A layer put over itself changes nothing. -/
theorem extend_extend (o : Overrides) (e : Extensions) :
    ((o.extend e).1.extend e).1 = (o.extend e).1 :=
  (extend_eq_extendAll e.merges_self).symm

end Layers

end Overrides

/-! ## Reports -/

/-- An entry that replaces another one of the same key. -/
structure Replacement where
  key : String
  old : String
  new : String
deriving DecidableEq

/-- The replacements of a map's entries by those of another: one for each key of both, in key
order. -/
structure ListsReplacements (m upper : SortedMap String String) (changes : List Replacement) :
    Prop where
  ascending : changes.Pairwise fun a b => compare a.key b.key = .lt
  mem_iff : ∀ c, c ∈ changes ↔ m.get? c.key = some c.old ∧ upper.get? c.key = some c.new

/-- What entries replace in a map. -/
def replacements (m : SortedMap String String) (entries : List (String × String)) :
    List Replacement :=
  entries.filterMap fun e => (m.get? e.1).map fun old => ⟨e.1, old, e.2⟩

theorem listsReplacements (m upper : SortedMap String String) :
    ListsReplacements m upper (replacements m upper.toList) where
  ascending := by
    refine upper.ascending.filterMap _ ?_
    intro a b hab c hc d hd
    obtain ⟨_, -, rfl⟩ := Option.map_eq_some_iff.1 hc
    obtain ⟨_, -, rfl⟩ := Option.map_eq_some_iff.1 hd
    exact hab
  mem_iff c := by
    rw [replacements, List.mem_filterMap, SortedMap.get?_eq_some_iff (m := upper)]
    constructor
    · rintro ⟨e, he, hc⟩
      obtain ⟨old, hold, rfl⟩ := Option.map_eq_some_iff.1 hc
      exact ⟨hold, he⟩
    · rintro ⟨hold, hnew⟩
      exact ⟨(c.key, c.new), hnew, Option.map_eq_some_iff.2 ⟨c.old, hold, rfl⟩⟩

namespace Overrides

/-- Entries of different keys report what they replace in the map that they are put over: an entry
that is put there before leaves the other keys alone. -/
theorem overlay_snd (report : String → String → String → Event) (m : SortedMap String String)
    {entries : List (String × String)} (h : entries.Pairwise fun a b => a.1 ≠ b.1) :
    (overlay report m entries).2 =
      (replacements m entries).map fun c => report c.key c.old c.new := by
  induction entries generalizing m with
  | nil => rfl
  | cons e entries ih =>
    obtain ⟨hne, hentries⟩ := List.pairwise_cons.1 h
    have hlater : replacements (m.insert e.1 e.2) entries = replacements m entries := by
      apply List.filterMap_congr
      intro later hmem
      rw [SortedMap.get?_insert, if_neg (hne later hmem).symm]
    unfold overlay
    dsimp only
    rw [ih _ hentries, hlater]
    cases hold : m.get? e.1 with
    | none => simp [replacements, hold]
    | some old => simp [replacements, hold]

/-- The events of a layer are the replacements of names and then those of keypad keysyms. -/
theorem events_extend (o : Overrides) (e : Extensions) :
    (o.extend e).2 =
      (replacements o.alternativeNames e.alternativeNames.toList).map
          (fun c => .alternativeChanged c.key c.old c.new) ++
        (replacements o.keypad e.keypad.toList).map
          (fun c => .keypadChanged c.key c.old c.new) := by
  rw [← overlay_snd _ _ e.alternativeNames.keys_ne, ← overlay_snd _ _ e.keypad.keys_ne]
  rfl

/-- The reports of a layer: on the level for debugging, each replaced name in key order, and then
each replaced keypad keysym, with what was there before and what is there now. -/
structure ReportsReplacements (o : Overrides) (e : Extensions) (events : List Event) : Prop where
  events_eq : ∃ names keypad : List Replacement,
    ListsReplacements o.alternativeNames e.alternativeNames names ∧
      ListsReplacements o.keypad e.keypad keypad ∧
      events = names.map (fun c => .alternativeChanged c.key c.old c.new) ++
        keypad.map (fun c => .keypadChanged c.key c.old c.new) ∧
      events.map Event.text =
        names.map (fun c => "alternative name for " ++ c.key ++ " changed from " ++ c.old ++
          " to " ++ c.new) ++
        keypad.map (fun c => "keypad keysym for " ++ c.key ++ " changed from " ++ c.old ++
          " to " ++ c.new)
  level_eq : ∀ event ∈ events, event.level = .debug

theorem reportsReplacements (o : Overrides) (e : Extensions) :
    o.ReportsReplacements e (o.extend e).2 := by
  rw [events_extend]
  refine ⟨⟨_, _, listsReplacements _ _, listsReplacements _ _, rfl, ?_⟩, ?_⟩
  · rw [List.map_append, List.map_map, List.map_map]
    rfl
  · intro event hevent
    rcases List.mem_append.1 hevent with h | h
    · obtain ⟨c, -, rfl⟩ := List.mem_map.1 h
      rfl
    · obtain ⟨c, -, rfl⟩ := List.mem_map.1 h
      rfl

/-! ## Composition -/

/-- Layers compose: their answers are those of the topmost one, they may be merged before they are
put over the base, the same layer twice is that layer once, and an empty one is none, so that a
configuration may leave it out. Each layer reports what it replaces. -/
theorem extendAll_composes (base : Overrides) (layers : List Extensions) :
    (base.extendAll layers).IsLayered base layers ∧
      ((Extensions.merged layers).Merges layers ∧
        ∀ e : Extensions, e.Merges layers → (base.extend e).1 = base.extendAll layers) ∧
      (∀ e, ((base.extend e).1.extend e).1 = (base.extend e).1) ∧
      (∀ e : Extensions, e.isEmpty = true → base.extend e = (base, [])) ∧
      (∀ c : Config, c.overrides = builtin.extend c.extensions) ∧
      ∀ e, base.ReportsReplacements e (base.extend e).2 :=
  ⟨isLayered_extendAll base layers,
    ⟨Extensions.merged_merges layers, fun _ h => extend_eq_extendAll h⟩,
    extend_extend base, fun _ h => extend_of_isEmpty base h, Config.overrides_eq_extend,
    reportsReplacements base⟩

/-- Overrides with an entry of each kind. -/
def altOverrides : Overrides :=
  ⟨.ofList [("Alt", "Alt_L")], .ofList [("Tab", "KP_Tab")], addNames .empty ["Zoom"], .controlMeta⟩

/-- Two layers that both name `Alt`; each ignores keys that are ignored already. -/
def altLayers : List Extensions :=
  [⟨.ofList [("Hyper", "Hyper_L"), ("Alt", "Meta_R")], .ofList [("Tab", "KP_Space")],
      ["Zoom", "Yes"]⟩,
    ⟨.ofList [("Alt", "Alt_R")], .empty, ["Yes", "Cancel"]⟩]

/-- `altLayers` as one layer. -/
def altExtensions : Extensions :=
  ⟨.ofList [("Alt", "Alt_R"), ("Hyper", "Hyper_L")], .ofList [("Tab", "KP_Space")],
    ["Zoom", "Yes", "Yes", "Cancel"]⟩

/-- The upper layer names `Alt`, and merged or not the layers leave the same overrides. -/
theorem extendAll_composes_altLayers :
    altExtensions.Merges altLayers ∧ Extensions.none.isEmpty = true ∧
      (altOverrides.extend altExtensions).1 = altOverrides.extendAll altLayers ∧
      (altOverrides.extendAll altLayers).alternative? "Alt" = some "Alt_R" ∧
      (altOverrides.extendAll altLayers).keypad? "Tab" = some "KP_Space" ∧
      (altOverrides.extendAll altLayers).isIgnored "Cancel" = true ∧
      altOverrides.extend .none = (altOverrides, []) ∧
      altOverrides.ReportsReplacements altExtensions
        [.alternativeChanged "Alt" "Alt_L" "Alt_R", .keypadChanged "Tab" "KP_Tab" "KP_Space"] := by
  obtain ⟨hlayered, ⟨hmerged, hmerges⟩, -, hempty, -, hreports⟩ :=
    extendAll_composes altOverrides altLayers
  have heq : Extensions.merged altLayers = altExtensions := by decide
  rw [heq] at hmerged
  have hevents : (altOverrides.extend altExtensions).2 =
      [.alternativeChanged "Alt" "Alt_L" "Alt_R", .keypadChanged "Tab" "KP_Tab" "KP_Space"] := by
    decide
  refine ⟨hmerged, rfl, hmerges _ hmerged, ?_, ?_, ?_, hempty .none rfl, ?_⟩
  · refine (hlayered.alternative_iff _ _).2 (.last ⟨[_], _, [], rfl, by decide, ?_⟩)
    exact fun _ h => nomatch h
  · refine (hlayered.keypad_iff _ _).2 (.last ⟨[], _, [_], rfl, by decide, ?_⟩)
    exact fun m hm => by rw [List.mem_singleton.1 hm]; decide
  · exact (hlayered.isIgnored_iff _).2 (.inr ⟨_, List.mem_cons_of_mem _ List.mem_cons_self, by decide⟩)
  · rw [← hevents]
    exact hreports altExtensions

end Overrides

end KeyDispatch
