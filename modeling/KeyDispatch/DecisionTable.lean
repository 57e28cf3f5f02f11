import KeyDispatch.Resolution
import KeyDispatch.SortedMap

/-!
# Decision tables

A `DecisionTable` is the full answer to what each key event means: the keysyms of single
characters, the resolved keys by ascending name, and the diagnostics. `dispatch` answers one
event, the character typed taking precedence over the key.
-/

namespace KeyDispatch

/-- A resolved key. -/
structure Entry where
  name : String
  toolkitCode : UInt32
  resolution : Resolution
deriving DecidableEq

/-- Keysyms of single characters by position, resolved keys, and the keys left out or not swapped.
-/
structure DecisionTable where
  textCases : SortedMap UInt32 Keysym
  entries : Array Entry
  diagnostics : List Diagnostic
deriving DecidableEq

namespace DecisionTable

/-- The table that knows no key. -/
def empty : DecisionTable := ⟨.empty, #[], []⟩

/-- The entry of a name among `entries[lo:hi]`, which ascend by name. -/
def search (entries : Array Entry) (name : String) (lo hi : Nat) : Option Entry :=
  if h : lo < hi ∧ hi ≤ entries.size then
    have : (lo + hi) / 2 < entries.size := by omega
    let e := entries[(lo + hi) / 2]
    match compare e.name name with
    | .eq => some e
    | .lt => search entries name ((lo + hi) / 2 + 1) hi
    | .gt => search entries name lo ((lo + hi) / 2)
  else none
termination_by hi - lo

/-- The entry of a name. -/
def find? (t : DecisionTable) (name : String) : Option Entry :=
  search t.entries name 0 t.entries.size

/-- The keysym of the first entry with the key's code. -/
def dispatchKey (t : DecisionTable) (key bits : UInt32) (platform : Platform) : Option Keysym :=
  (t.entries.toList.find? fun e => e.toolkitCode == key).map fun e =>
    e.resolution.evaluate bits platform

/-- The keysym of a key event. A text of exactly one character that has a keysym wins over the
key. -/
def dispatch (t : DecisionTable) (key bits : UInt32) (text : String) (platform : Platform) :
    Option Keysym :=
  match text.toList with
  | [c] => (t.textCases.get? c.val).or (t.dispatchKey key bits platform)
  | _ => t.dispatchKey key bits platform

/-- The keysym of a text of exactly one character. -/
def dispatchText? (t : DecisionTable) (text : String) : Option Keysym :=
  match text.toList with
  | [c] => t.textCases.get? c.val
  | _ => none

/-- The text decides first, and then the key. -/
theorem dispatch_eq_or (t : DecisionTable) (key bits : UInt32) (text : String)
    (platform : Platform) :
    t.dispatch key bits text platform =
      (t.dispatchText? text).or (t.dispatchKey key bits platform) := by
  unfold dispatch dispatchText?
  split <;> rfl

end DecisionTable

end KeyDispatch
