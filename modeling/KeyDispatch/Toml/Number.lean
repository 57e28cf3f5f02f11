import KeyDispatch.Toml.Text

/-!
# Numbers of TOML

Integers have 64 bits and may be written in base 10, 16, 8 or 2; floats must not round to positive
infinity. Single underscores may separate digits.
-/

namespace KeyDispatch.Toml

/-- Digits of which each after the first may follow one underscore. -/
def digitsFrom (isDigit : Char → Bool) (acc : List Char) : Reader (List Char)
  | '_' :: c :: cs => if isDigit c then digitsFrom isDigit (c :: acc) cs else none
  | c :: cs =>
    if isDigit c then digitsFrom isDigit (c :: acc) cs
    else if c = '_' then none
    else some (acc.reverse, c :: cs)
  | [] => some (acc.reverse, [])

/-- A run of at least one digit, with underscores between digits. -/
def digits? (isDigit : Char → Bool) (cs : List Char) : Option (List Char × List Char) :=
  match cs with
  | c :: rest => if isDigit c then digitsFrom isDigit [c] rest else none
  | [] => none

/-- Value of digits in a base up to sixteen. -/
def valueIn (base : Nat) (ds : List Char) : Nat :=
  ds.foldl (fun n c => base * n + Text.digitValue c) 0

/-- The integer is one of 64 bits. -/
def inRange (n : Int) : Bool := -0x8000000000000000 ≤ n && n < 0x8000000000000000

/-- Half the last place above the greatest finite number of 64 bits: from here on, numbers round to
infinity. -/
def infinityBound : Nat := (Nat.pow 2 54 - 1) * Nat.pow 2 970

/-- The number `n` times ten to the power of `e` rounds to infinity. -/
def roundsToInfinity (n : Nat) (e : Int) : Bool :=
  if n = 0 then false
  else if e > 400 then true
  else if e + (Nat.toDigits 10 n).length < 300 then false
  else if 0 ≤ e then decide (infinityBound ≤ n * Nat.pow 10 e.toNat)
  else decide (infinityBound * Nat.pow 10 (-e).toNat ≤ n)

/-- The part of a number behind its whole digits. -/
structure FloatTail where
  fraction : List Char
  exponent : Int

/-- An exponent with its sign. -/
def exponent? (cs : List Char) : Option (Int × List Char) :=
  match cs with
  | '+' :: rest => (digits? Char.isDigit rest).map fun p => ((valueIn 10 p.1 : Int), p.2)
  | '-' :: rest => (digits? Char.isDigit rest).map fun p => (-(valueIn 10 p.1 : Int), p.2)
  | rest => (digits? Char.isDigit rest).map fun p => ((valueIn 10 p.1 : Int), p.2)

/-- An optional exponent behind a fraction. -/
def afterFraction? (fraction : List Char) (cs : List Char) :
    Option (FloatTail × List Char) :=
  match cs with
  | c :: rest =>
    if c = 'e' ∨ c = 'E' then (exponent? rest).map fun p => (⟨fraction, p.1⟩, p.2)
    else some (⟨fraction, 0⟩, cs)
  | [] => some (⟨fraction, 0⟩, [])

/-- A fraction, an exponent, or both; without either the number is an integer. -/
def floatTail? (cs : List Char) : Option (Option FloatTail × List Char) :=
  match cs with
  | '.' :: rest => do
    let (fraction, rest) ← digits? Char.isDigit rest
    let (tail, rest) ← afterFraction? fraction rest
    return (some tail, rest)
  | c :: rest =>
    if c = 'e' ∨ c = 'E' then (exponent? rest).map fun p => (some ⟨[], p.1⟩, p.2)
    else some (none, cs)
  | [] => some (none, [])

/-- A number: an integer, or a float of which only the kind is kept. -/
inductive Number where
  | integer (n : Int)
  | float
deriving DecidableEq

/-- A number in decimal digits. -/
def decimal? (negative : Bool) (cs : List Char) : Option (Number × List Char) := do
  let (whole, rest) ← digits? Char.isDigit cs
  guard (whole.length = 1 ∨ whole.head? ≠ some '0')
  let (tail, rest) ← floatTail? rest
  match tail with
  | none =>
    let n : Int := valueIn 10 whole
    let n := if negative then -n else n
    guard (inRange n)
    return (.integer n, rest)
  | some tail =>
    guard (negative ∨
      roundsToInfinity (valueIn 10 (whole ++ tail.fraction)) (tail.exponent - tail.fraction.length)
        = false)
    return (.float, rest)

/-- A number in another base. -/
def based? (base : Nat) (isDigit : Char → Bool) (cs : List Char) :
    Option (Number × List Char) := do
  let (ds, rest) ← digits? isDigit cs
  guard (inRange (valueIn base ds))
  return (.integer (valueIn base ds), rest)

/-- A number behind its sign. -/
def unsigned? (negative : Bool) (cs : List Char) : Option (Number × List Char) :=
  match cs with
  | 'i' :: 'n' :: 'f' :: rest => some (.float, rest)
  | 'n' :: 'a' :: 'n' :: rest => some (.float, rest)
  | cs => decimal? negative cs

/-- A number. -/
def number? (cs : List Char) : Option (Number × List Char) :=
  match cs with
  | '+' :: rest => unsigned? false rest
  | '-' :: rest => unsigned? true rest
  | '0' :: 'x' :: rest => based? 16 Text.isHexDigit rest
  | '0' :: 'o' :: rest => based? 8 (fun c => '0' ≤ c && c ≤ '7') rest
  | '0' :: 'b' :: rest => based? 2 (fun c => c == '0' || c == '1') rest
  | rest => unsigned? false rest

end KeyDispatch.Toml
