import KeyDispatch.Source
import KeyDispatch.Resolution

/-!
# Events of a run

An `Event` is one thing that a run reports while it goes on. Each has a level and a text, and most
are records of the log. `Logged` is the outcome of a step together with its events, which stay when
the step fails.
-/

namespace KeyDispatch

/-- Levels from the most severe to the least. -/
inductive Level where
  | error
  | warn
  | info
  | debug
  | trace
deriving DecidableEq

namespace Level

/-- All levels, the most severe first. -/
def all : List Level := [error, warn, info, debug, trace]

/-- Name in capitals. -/
def name : Level → String
  | error => "ERROR"
  | warn => "WARN"
  | info => "INFO"
  | debug => "DEBUG"
  | trace => "TRACE"

/-- Rank from the most severe upwards. -/
def rank : Level → Nat
  | error => 0
  | warn => 1
  | info => 2
  | debug => 3
  | trace => 4

end Level

/-- What a run reports: definitions that were dropped, one summary for each header, replaced
override entries, the result for each key and for all keys, the files found, read and written, the
diagnostics of the finished table once more, and the summary of the whole run. -/
inductive Event where
  | redefined (line : Nat) (name : String)
  | positionTaken (position : UInt32) (holder name : String)
  | primarySummary (accepted aliases deprecated positions caseUnique : Nat)
  | vendorSummary (symbols : Nat)
  | toolkitSummary (keys : Nat)
  | alternativeChanged (key old new : String)
  | keypadChanged (key old new : String)
  | diagnosed (diagnostic : Diagnostic)
  | keypadNotApplied (key keysym : String)
  | resolved (key : String) (resolution : Resolution)
  | resolverSummary (mapped keys ignored unresolved textCases : Nat)
  | foundInput (source : Source) (path : String)
  | loadingConfig (path : String)
  | readingInput (source : Source) (path : String)
  | listed (diagnostic : Diagnostic)
  | generated (mapped textCases unresolved : Nat)
  | wrote (path : String)
  | upToDate (path : String)
deriving DecidableEq

namespace Event

/-- The event is a record of the log. The list of the diagnostics is for the user and goes past the
log. -/
def isLogged : Event → Bool
  | listed _ => false
  | _ => true

/-- Level of an event. The list of the diagnostics belongs to the summary behind it. -/
def level : Event → Level
  | diagnosed _ => .warn
  | keypadNotApplied _ _ => .warn
  | readingInput _ _ => .info
  | listed _ => .info
  | generated _ _ _ => .info
  | wrote _ => .info
  | upToDate _ => .info
  | resolved _ _ => .trace
  | _ => .debug

/-- Text of an event. -/
def text : Event → String
  | redefined line name =>
    "keysymdef line " ++ toString line ++ ": XK_" ++ name
      ++ " redefined, keeping first definition"
  | positionTaken position holder name =>
    Text.positionText position.toNat ++ " already mapped to XK_" ++ holder ++ ", ignoring XK_"
      ++ name
  | primarySummary accepted aliases deprecated positions caseUnique =>
    "keysymdef: " ++ toString accepted ++ " accepted, " ++ toString aliases ++ " aliases, "
      ++ toString deprecated ++ " deprecated, " ++ toString positions
      ++ " unicode equivalents, " ++ toString caseUnique ++ " case-unique"
  | vendorSummary symbols => "XF86keysym: " ++ toString symbols ++ " vendor keysyms"
  | toolkitSummary keys => "qnamespace: " ++ toString keys ++ " Qt keys"
  | alternativeChanged key old new =>
    "alternative name for " ++ key ++ " changed from " ++ old ++ " to " ++ new
  | keypadChanged key old new =>
    "keypad keysym for " ++ key ++ " changed from " ++ old ++ " to " ++ new
  | diagnosed diagnostic => diagnostic.message
  | keypadNotApplied key keysym =>
    "Qt key " ++ key ++ " maps to a shift-dependent keysym, keypad keysym XK_" ++ keysym
      ++ " not applied"
  | resolved key resolution => "Key_" ++ key ++ " -> " ++ resolution.describe
  | resolverSummary mapped keys ignored unresolved textCases =>
    "resolved " ++ toString mapped ++ " of " ++ toString keys ++ " Qt keys ("
      ++ toString ignored ++ " ignored, " ++ toString unresolved ++ " unresolved), "
      ++ toString textCases ++ " text cases"
  | foundInput source path => "found " ++ source.fileName ++ " at " ++ path
  | loadingConfig path => "loading config from " ++ path
  | readingInput source path => source.name ++ ": " ++ path
  | listed diagnostic => "  " ++ diagnostic.message
  | generated mapped textCases unresolved =>
    toString mapped ++ " keys mapped, " ++ toString textCases ++ " text cases, "
      ++ toString unresolved ++ " unresolved"
  | wrote path => "wrote " ++ path
  | upToDate path => path ++ " is up to date"

/-- The line that an event is printed as. Records of the log show their level. -/
def line (e : Event) : String :=
  if e.isLogged then "[" ++ e.level.name ++ "] " ++ e.text else e.text

/-- The event is printed where the log shows the events up to `level`. What is no record of the log
is printed in any case. -/
def isShownAt (level : Level) (e : Event) : Bool := !e.isLogged || e.level.rank ≤ level.rank

/-- The lines that are printed of events. -/
def shownLines (level : Level) (events : List Event) : List String :=
  (events.filter (isShownAt level)).map line

end Event

/-- The events of a step, in order, and its outcome. -/
structure Logged (ε α : Type) where
  events : List Event
  outcome : Except ε α

namespace Logged

variable {ε δ α β : Type}

instance : Monad (Logged ε) where
  pure a := ⟨[], .ok a⟩
  bind m f :=
    match m.outcome with
    | .error e => ⟨m.events, .error e⟩
    | .ok a => ⟨m.events ++ (f a).events, (f a).outcome⟩

/-- A step that reports one event. -/
def report (e : Event) : Logged ε Unit := ⟨[e], .ok ()⟩

/-- A step that reports events in order. -/
def reportAll (es : List Event) : Logged ε Unit := ⟨es, .ok ()⟩

/-- A step that fails silently. -/
def fail (e : ε) : Logged ε α := ⟨[], .error e⟩

/-- A step with another account of its failure. -/
def mapError (f : ε → δ) (m : Logged ε α) : Logged δ α :=
  ⟨m.events, match m.outcome with
    | .error e => .error (f e)
    | .ok a => .ok a⟩

/-- After a success the next step follows, and its events come behind. -/
theorem bind_ok {m : Logged ε α} {f : α → Logged ε β} {a : α} (h : m.outcome = .ok a) :
    m >>= f = ⟨m.events ++ (f a).events, (f a).outcome⟩ := by
  simp [Bind.bind, h]

/-- After a failure no step follows, and the events stay. -/
theorem bind_error {m : Logged ε α} {f : α → Logged ε β} {e : ε} (h : m.outcome = .error e) :
    m >>= f = ⟨m.events, .error e⟩ := by
  simp [Bind.bind, h]

/-- The outcome of two steps is that of their outcomes. -/
theorem outcome_bind (m : Logged ε α) (f : α → Logged ε β) :
    (m >>= f).outcome = m.outcome >>= fun a => (f a).outcome := by
  cases h : m.outcome with
  | error e => rw [bind_error h]; rfl
  | ok a => rw [bind_ok h]; rfl

/-- Two steps succeed if the first one does and then the second. -/
theorem outcome_bind_eq_ok_iff {m : Logged ε α} {f : α → Logged ε β} {b : β} :
    (m >>= f).outcome = .ok b ↔ ∃ a, m.outcome = .ok a ∧ (f a).outcome = .ok b := by
  cases h : m.outcome with
  | error e => simp [bind_error h]
  | ok a => simp [bind_ok h]

/-- Another account of a failure leaves a success alone. -/
theorem outcome_mapError_eq_ok_iff {f : ε → δ} {m : Logged ε α} {a : α} :
    (m.mapError f).outcome = .ok a ↔ m.outcome = .ok a := by
  cases h : m.outcome <;> simp [mapError, h]

end Logged

end KeyDispatch
