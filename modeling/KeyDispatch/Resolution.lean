import KeyDispatch.Keysym
import KeyDispatch.Modifier

/-!
# Resolutions

A `Resolution` says which keysym a key produces, depending on the modifiers held and on the
platform. `Diagnostic` lists the reasons why a key has no resolution, or not the one it should
have.
-/

namespace KeyDispatch

/-- The keysym of a key: always the same; the upper one of two while Shift is held; the keypad's own
while the keypad modifier is set; or the exchanged resolution on `platform` and the normal one
elsewhere. -/
inductive Resolution where
  | fixed (keysym : Keysym)
  | shift (lower upper : Keysym)
  | keypad (plain onKeypad : Keysym)
  | swapped (normal exchanged : Resolution) (platform : Platform)
deriving DecidableEq

namespace Resolution

/-- The keysym produced while the modifiers `bits` are held on `platform`. -/
def evaluate (bits : UInt32) (platform : Platform) : Resolution → Keysym
  | .fixed keysym => keysym
  | .shift lower upper => if Modifier.shift.isSet bits then upper else lower
  | .keypad plain onKeypad => if Modifier.keypad.isSet bits then onKeypad else plain
  | .swapped normal exchanged target =>
    if platform = target then exchanged.evaluate bits platform else normal.evaluate bits platform

/-- Form of a keysym in log messages. -/
def describeKeysym (k : Keysym) : String := "Keysym(" ++ toString k.code.toNat ++ ")"

/-- Form of a resolution in log messages. -/
def describe : Resolution → String
  | .fixed keysym => "Fixed(" ++ describeKeysym keysym ++ ")"
  | .shift lower upper =>
    "Shift \x7b lower: " ++ describeKeysym lower ++ ", upper: " ++ describeKeysym upper ++ " \x7d"
  | .keypad plain onKeypad =>
    "Keypad \x7b plain: " ++ describeKeysym plain ++ ", keypad: " ++ describeKeysym onKeypad
      ++ " \x7d"
  | .swapped normal exchanged platform =>
    "PlatformSwapped \x7b normal: " ++ normal.describe ++ ", swapped: " ++ exchanged.describe
      ++ ", platform: " ++ platform.name ++ " \x7d"

end Resolution

/-- A key left without a keysym, or without its swap: only differently-cased names exist, under
several casings; no name matches; or the other member of the swap pair has no resolution. -/
inductive Diagnostic where
  | caseMismatch (key : String)
  | noMatch (key : String)
  | swapPartnerUnresolved (key partner : String)
deriving DecidableEq

namespace Diagnostic

/-- The key that the diagnostic is about. -/
def key : Diagnostic → String
  | caseMismatch key => key
  | noMatch key => key
  | swapPartnerUnresolved key _ => key

/-- Wording of the diagnostic. -/
def message : Diagnostic → String
  | caseMismatch key =>
    "Qt key not found in keysymdef.h, but lowercase name found in non-unique list: " ++ key
  | noMatch key => "Qt key not found in keysymdef.h: " ++ key
  | swapPartnerUnresolved key partner =>
    "Qt key " ++ key ++ " is not swapped: its partner " ++ partner ++ " has no mapping"

end Diagnostic

end KeyDispatch
