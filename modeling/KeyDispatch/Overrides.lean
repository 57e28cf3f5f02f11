import KeyDispatch.Event
import KeyDispatch.SortedMap

/-!
# Overrides

Toolkit and keysym names do not always agree. `Overrides` holds the names to use instead, the
keysyms that keys have on the keypad, the keys to leave out, and the pair of keys that trade
places on one platform. `Extensions` are further entries; an entry put over another of the same
key replaces it, and the replacement is reported.
-/

namespace KeyDispatch

/-- Two keys whose resolutions are exchanged on one platform. -/
structure PlatformSwap where
  first : String
  second : String
  platform : Platform
deriving DecidableEq

namespace PlatformSwap

/-- Control and Meta trade places on macOS, where the toolkit reports Command as Control and
Control as Meta. -/
def controlMeta : PlatformSwap := ⟨"Control", "Meta", .macOS⟩

/-- The other member of the pair. -/
def partner? (swap : PlatformSwap) (key : String) : Option String :=
  if key = swap.first then some swap.second
  else if key = swap.second then some swap.first
  else none

end PlatformSwap

/-- Override entries to be put over others: keysym names by key, keypad keysym names by key, and
keys to leave out, as they were listed. -/
structure Extensions where
  alternativeNames : SortedMap String String
  keypad : SortedMap String String
  ignored : List String
deriving DecidableEq, Inhabited

namespace Extensions

/-- No entries. -/
def none : Extensions := ⟨.empty, .empty, []⟩

/-- There are no entries. -/
def isEmpty (e : Extensions) : Bool :=
  e.alternativeNames.isEmpty && e.keypad.isEmpty && e.ignored.isEmpty

/-- Without entries there is nothing in any of the three. -/
theorem eq_none_of_isEmpty {e : Extensions} (h : e.isEmpty = true) : e = none := by
  rw [isEmpty, Bool.and_eq_true_iff, Bool.and_eq_true_iff] at h
  obtain ⟨⟨hnames, hkeypad⟩, hignored⟩ := h
  have hnames : e.alternativeNames = .empty := SortedMap.ext_toList (List.isEmpty_iff.1 hnames)
  have hkeypad : e.keypad = .empty := SortedMap.ext_toList (List.isEmpty_iff.1 hkeypad)
  calc e = ⟨e.alternativeNames, e.keypad, e.ignored⟩ := rfl
    _ = none := by rw [hnames, hkeypad, List.isEmpty_iff.1 hignored, none]

end Extensions

/-- The tables that resolution consults. -/
structure Overrides where
  alternativeNames : SortedMap String String
  keypad : SortedMap String String
  ignored : SortedMap String Unit
  swap : PlatformSwap
deriving DecidableEq

namespace Overrides

/-- No entries; only the swap pair. -/
def empty : Overrides := ⟨.empty, .empty, .empty, .controlMeta⟩

/-- Keysym name to use for a key. -/
def alternative? (o : Overrides) (key : String) : Option String := o.alternativeNames.get? key

/-- Name of the keysym that a key has on the keypad. -/
def keypad? (o : Overrides) (key : String) : Option String := o.keypad.get? key

/-- The key is left out. -/
def isIgnored (o : Overrides) (key : String) : Bool := o.ignored.contains key

/-- A map with entries put over it, and a report for each that replaced a value. -/
def overlay (report : String → String → String → Event) (m : SortedMap String String) :
    List (String × String) → SortedMap String String × List Event
  | [] => (m, [])
  | (key, new) :: rest =>
    let replaced := match m.get? key with
      | some old => [report key old new]
      | none => []
    let (m', later) := overlay report (m.insert key new) rest
    (m', replaced ++ later)

/-- A set with the listed names added. -/
def addNames (s : SortedMap String Unit) (names : List String) : SortedMap String Unit :=
  names.foldl (fun s name => s.insert name ()) s

/-- The overrides with extensions put over them, and the reports on replaced entries. -/
def extend (o : Overrides) (e : Extensions) : Overrides × List Event :=
  let (alternativeNames, changedNames) :=
    overlay .alternativeChanged o.alternativeNames e.alternativeNames.toList
  let (keypad, changedKeypad) := overlay .keypadChanged o.keypad e.keypad.toList
  (⟨alternativeNames, keypad, addNames o.ignored e.ignored, o.swap⟩, changedNames ++ changedKeypad)

/-- Extensions without entries change nothing, and nothing is reported. -/
theorem extend_of_isEmpty (o : Overrides) {e : Extensions} (h : e.isEmpty = true) :
    o.extend e = (o, []) := by
  rw [Extensions.eq_none_of_isEmpty h]
  rfl

end Overrides

end KeyDispatch
