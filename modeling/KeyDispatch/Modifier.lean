/-!
# Modifiers and platforms

A set of keyboard modifiers is a 32-bit word with one bit for each modifier. Two of them change
which keysym a key produces, and one platform changes which key is which.
-/

namespace KeyDispatch

/-- A keyboard modifier that a key's keysym can depend on. -/
inductive Modifier where
  | shift
  | keypad
deriving DecidableEq

namespace Modifier

/-- The modifier's bit. -/
def mask : Modifier → UInt32
  | shift => 0x02000000
  | keypad => 0x20000000

/-- The modifier's bit is set in `bits`. -/
def isSet (m : Modifier) (bits : UInt32) : Bool := bits &&& m.mask != 0

/-- Name of the toolkit's enumerator. -/
def enumerator : Modifier → String
  | shift => "Qt::ShiftModifier"
  | keypad => "Qt::KeypadModifier"

/-- Name of the constant that a generated module declares for the mask. -/
def constant : Modifier → String
  | shift => "SHIFT_MODIFIER"
  | keypad => "KEYPAD_MODIFIER"

end Modifier

/-- The platform a dispatch runs on. On `macOS` the toolkit reports the Command key as Control and
the Control key as Meta. -/
inductive Platform where
  | macOS
  | other
deriving DecidableEq

namespace Platform

/-- The platform assumed where none is named. -/
def standard : Platform := other

/-- Name in log messages. -/
def name : Platform → String
  | macOS => "MacOs"
  | other => "Other"

end Platform

end KeyDispatch
