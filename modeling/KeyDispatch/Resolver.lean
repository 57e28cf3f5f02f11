import KeyDispatch.DecisionTable
import KeyDispatch.Event
import KeyDispatch.Overrides
import KeyDispatch.Primary
import KeyDispatch.Toolkit
import KeyDispatch.Vendor

/-!
# Resolution of keys

`Resolver.resolveKey` decides what one toolkit key means, looking at nothing but that key's own
name. `Resolver.resolve` does so for all keys of a toolkit table, by ascending name, exchanges the
swap pair and adds the keysyms of single characters.
-/

namespace KeyDispatch

/-- Why no table can be made: the index of spellings contradicts the accepted symbols, or a keypad
keysym does not exist. -/
inductive ResolveError where
  | caseIndexInconsistent (key : String)
  | unknownKeypadSymbol (key keysym : String)
deriving DecidableEq

namespace ResolveError

/-- Wording of the error. -/
def message : ResolveError → String
  | caseIndexInconsistent key =>
    "internal error: Qt key " ++ key
      ++ " not found with lowercase name in unique index, but also not in non-unique set"
  | unknownKeypadSymbol key keysym =>
    "keypad keysym XK_" ++ keysym ++ " for Qt key " ++ key ++ " is not defined in keysymdef.h"

end ResolveError

/-- What became of a key by its name alone. -/
inductive BaseOutcome where
  | ignored
  | unresolved (diagnostic : Diagnostic)
  | resolved (base : Resolution)
deriving DecidableEq

/-- What became of a key in the end. -/
inductive KeyOutcome where
  | ignored
  | unresolved (diagnostic : Diagnostic)
  | resolved (entry : Entry)
deriving DecidableEq

namespace KeyOutcome

/-- The entry of a resolved key. -/
def entryOf? : KeyOutcome → Option Entry
  | resolved entry => some entry
  | _ => none

/-- The diagnostic of an unresolved key. -/
def diagnosticOf? : KeyOutcome → Option Diagnostic
  | unresolved diagnostic => some diagnostic
  | _ => none

/-- The key was left out. -/
def isIgnored : KeyOutcome → Bool
  | ignored => true
  | _ => false

end KeyOutcome

/-- The tables that keys are resolved against. -/
structure Resolver where
  primary : PrimaryTable
  vendor : VendorTable
  overrides : Overrides

namespace Resolver

/-- Resolution of a key whose own name is accepted although its spelling is not unique: the lower
and the upper case symbol if both exist, the lower case one if only that exists, or else the
symbol itself. -/
def spelled (r : Resolver) (name : String) (exact : Keysym) : Resolution :=
  match r.primary.code? (Text.lowercase name), r.primary.code? (Text.uppercase name) with
  | some lower, some upper => .shift lower upper
  | some lower, none => .fixed lower
  | none, _ => .fixed exact

/-- The keysym of a key that no spelling of its name has: that of the alternative name, of the
vendor symbol, or of the vendor symbol of the alternative name, in this order. -/
def substitute? (r : Resolver) (name : String) : Option Keysym :=
  let alternative := r.overrides.alternative? name
  (alternative.bind r.primary.code?).or
    ((r.vendor.code? name).or (alternative.bind r.vendor.code?))

/-- The primary symbol with the only spelling of a name. -/
def uniqueSpelling? (r : Resolver) (name : String) : Option Keysym :=
  (r.primary.caseIndex.lookup name).bind r.primary.code?

/-- The rules for a key by its name, the first that applies winning. -/
def resolveBase (r : Resolver) (name : String) : Except ResolveError BaseOutcome :=
  if r.overrides.isIgnored name then .ok .ignored
  else
    match r.uniqueSpelling? name with
    | some code => .ok (.resolved (.fixed code))
    | none =>
      match r.primary.code? name with
      | some exact =>
        if r.primary.caseIndex.isNonUnique name then .ok (.resolved (r.spelled name exact))
        else .error (.caseIndexInconsistent name)
      | none =>
        match r.substitute? name with
        | some code => .ok (.resolved (.fixed code))
        | none =>
          .ok (.unresolved
            (if r.primary.caseIndex.isNonUnique name then .caseMismatch name else .noMatch name))

/-- Adds the key's keypad keysym to a resolution that does not depend on Shift. -/
def applyKeypad (r : Resolver) (name : String) (base : Resolution) :
    Logged ResolveError Resolution :=
  match r.overrides.keypad? name with
  | none => pure base
  | some symbol =>
    match r.primary.code? symbol with
    | none => .fail (.unknownKeypadSymbol name symbol)
    | some onKeypad =>
      match base with
      | .fixed plain => pure (.keypad plain onKeypad)
      | other => ⟨[.keypadNotApplied name symbol], .ok other⟩

/-- What becomes of one key. -/
def resolveKey (r : Resolver) (key : String × UInt32) : Logged ResolveError KeyOutcome :=
  match r.resolveBase key.1 with
  | .error e => .fail e
  | .ok .ignored => pure .ignored
  | .ok (.unresolved diagnostic) => ⟨[.diagnosed diagnostic], .ok (.unresolved diagnostic)⟩
  | .ok (.resolved base) => do
    let resolution ← r.applyKeypad key.1 base
    Logged.report (.resolved key.1 resolution)
    return .resolved ⟨key.1, key.2, resolution⟩

/-- What becomes of several keys, in order. -/
def resolveKeys (r : Resolver) : List (String × UInt32) → Logged ResolveError (List KeyOutcome)
  | [] => pure []
  | key :: keys => do
    let outcome ← r.resolveKey key
    let outcomes ← r.resolveKeys keys
    return outcome :: outcomes

/-- The entries with the swap pair exchanged. If only one member of the pair has an entry, the entry
stays and a diagnostic says so. -/
def exchange (swap : PlatformSwap) (entries : List Entry) : List Entry × Option Diagnostic :=
  match entries.find? (·.name == swap.first), entries.find? (·.name == swap.second) with
  | some a, some b =>
    (entries.map fun e =>
      if e.name = swap.first then
        { e with resolution := .swapped a.resolution b.resolution swap.platform }
      else if e.name = swap.second then
        { e with resolution := .swapped b.resolution a.resolution swap.platform }
      else e, none)
  | some _, none => (entries, some (.swapPartnerUnresolved swap.first swap.second))
  | none, some _ => (entries, some (.swapPartnerUnresolved swap.second swap.first))
  | none, none => (entries, none)

/-- The keysyms of the characters that accepted symbols declare. -/
def textCases (primary : PrimaryTable) : SortedMap UInt32 Keysym :=
  .ofList (primary.unicodeIndex.toList.filterMap fun p =>
    (primary.code? p.2).map fun code => (p.1, code))

/-- The decision table for every key of a toolkit table. -/
def resolve (r : Resolver) (toolkit : ToolkitTable) : Logged ResolveError DecisionTable := do
  let outcomes ← r.resolveKeys toolkit.toList
  let (entries, unswapped) := exchange r.overrides.swap (outcomes.filterMap (·.entryOf?))
  let diagnostics := outcomes.filterMap (·.diagnosticOf?) ++ unswapped.toList
  Logged.reportAll (unswapped.toList.map .diagnosed)
  let text := textCases r.primary
  Logged.report (.resolverSummary entries.length toolkit.size (outcomes.countP (·.isIgnored))
    diagnostics.length text.size)
  return ⟨text, entries.toArray, diagnostics⟩

end Resolver

end KeyDispatch
