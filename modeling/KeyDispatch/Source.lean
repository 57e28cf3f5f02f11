import KeyDispatch.Text.Hex

/-!
# Definition sources

Three headers define the symbols: the primary keysyms, the vendor keysyms and the toolkit's key
codes. `HeaderError` lists what can be wrong with a line of one of them.
-/

namespace KeyDispatch

/-- A header with definitions. -/
inductive Source where
  | keysymdef
  | vendor
  | toolkit
deriving DecidableEq

namespace Source

/-- The three headers in the order they are read. -/
def all : List Source := [keysymdef, vendor, toolkit]

/-- Name of the source. -/
def name : Source → String
  | keysymdef => "keysymdef"
  | vendor => "vendor"
  | toolkit => "toolkit"

/-- Conventional file name of the header. -/
def fileName : Source → String
  | keysymdef => "keysymdef.h"
  | vendor => "XF86keysym.h"
  | toolkit => "qnamespace.h"

end Source

/-- A line that a header must not contain: a definition of the wrong shape, a value of more than 32
bits, or a vendor keysym outside the vendor range. -/
inductive HeaderError where
  | malformedDefinition (source : Source) (line : Nat) (text : String)
  | invalidCode (source : Source) (line : Nat) (text : String)
  | vendorCodeOutOfRange (line : Nat) (name : String) (code : UInt32)
deriving DecidableEq

namespace HeaderError

/-- Wording of the error. -/
def message : HeaderError → String
  | malformedDefinition source line text =>
    source.name ++ " line " ++ toString line ++ ": unhandled definition: " ++ text
  | invalidCode source line text =>
    source.name ++ " line " ++ toString line ++ ": value does not fit in 32 bits: " ++ text
  | vendorCodeOutOfRange line name code =>
    "vendor line " ++ toString line ++ ": " ++ name ++ " = " ++ Text.hexText 1 code.toNat
      ++ " is outside 0x10080001..=0x1008ffff"

end HeaderError

end KeyDispatch
