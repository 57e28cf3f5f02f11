import KeyDispatch.Toml.Text

/-!
# Dates and times of TOML

Dates, times of day, and dates with times are checked against the calendar and kept in one written
form.
-/

namespace KeyDispatch.Toml

/-- The number of exactly `n` decimal digits. -/
def decimals? (n : Nat) (cs : List Char) : Option (Nat × List Char) :=
  let digits := cs.take n
  if digits.length = n ∧ digits.all Char.isDigit then
    some (digits.foldl (fun v c => 10 * v + (c.toNat - '0'.toNat)) 0, cs.drop n)
  else none

/-- `n` with two digits. -/
def twoDigits (n : Nat) : String := String.ofList (Text.padZeros 2 (Nat.toDigits 10 n))

/-- `n` with four digits. -/
def fourDigits (n : Nat) : String := String.ofList (Text.padZeros 4 (Nat.toDigits 10 n))

/-- Number of days of a month. -/
def daysOf (year month : Nat) : Nat :=
  if month = 2 then
    if year % 4 = 0 ∧ (year % 100 ≠ 0 ∨ year % 400 = 0) then 29 else 28
  else if month = 4 ∨ month = 6 ∨ month = 9 ∨ month = 11 then 30
  else 31

/-- A date with dashes. -/
def date? (cs : List Char) : Option (String × List Char) := do
  let (year, cs) ← decimals? 4 cs
  guard (cs.head? = some '-')
  let (month, cs) ← decimals? 2 cs.tail
  guard (cs.head? = some '-')
  let (day, cs) ← decimals? 2 cs.tail
  guard (1 ≤ month ∧ month ≤ 12 ∧ 1 ≤ day ∧ day ≤ daysOf year month)
  return (fourDigits year ++ "-" ++ twoDigits month ++ "-" ++ twoDigits day, cs)

/-- Hours and minutes with a colon. -/
def hourMinute? (cs : List Char) : Option ((Nat × Nat) × List Char) := do
  let (hour, cs) ← decimals? 2 cs
  guard (cs.head? = some ':')
  let (minute, cs) ← decimals? 2 cs.tail
  guard (hour ≤ 23 ∧ minute ≤ 59)
  return ((hour, minute), cs)

/-- A fraction of a second: nine digits count, and zeros at their end are not written. -/
def fraction (cs : List Char) : String × List Char :=
  match cs with
  | '.' :: rest =>
    let digits := rest.takeWhile Char.isDigit
    if digits.isEmpty then ("", cs)
    else
      let kept := ((digits.take 9).reverse.dropWhile (· == '0')).reverse
      (if kept.isEmpty then "" else String.ofList ('.' :: kept), rest.dropWhile Char.isDigit)
  | _ => ("", cs)

/-- A time of day with colons. -/
def time? (cs : List Char) : Option (String × List Char) := do
  let ((hour, minute), cs) ← hourMinute? cs
  guard (cs.head? = some ':')
  let (second, cs) ← decimals? 2 cs.tail
  guard (second ≤ 60)
  let (part, cs) := fraction cs
  return (twoDigits hour ++ ":" ++ twoDigits minute ++ ":" ++ twoDigits second ++ part, cs)

/-- An offset from universal time; without one the text is empty. -/
def offset? (cs : List Char) : Option (String × List Char) :=
  match cs with
  | 'Z' :: rest => some ("Z", rest)
  | 'z' :: rest => some ("Z", rest)
  | '+' :: rest => signed "+" rest
  | '-' :: rest => signed "-" rest
  | _ => some ("", cs)
where
  signed (sign : String) (rest : List Char) : Option (String × List Char) := do
    let ((hour, minute), rest) ← hourMinute? rest
    let sign := if hour = 0 ∧ minute = 0 then "+" else sign
    return (sign ++ twoDigits hour ++ ":" ++ twoDigits minute, rest)

/-- The text begins like a date: four digits and a dash. -/
def startsDate (cs : List Char) : Bool :=
  match decimals? 4 cs with
  | some (_, '-' :: _) => true
  | _ => false

/-- The text begins like a time: two digits and a colon. -/
def startsTime (cs : List Char) : Bool :=
  match decimals? 2 cs with
  | some (_, ':' :: _) => true
  | _ => false

/-- A date, a time, or a date and a time that a `T` or a space separates and an offset may follow.
-/
def datetime? (cs : List Char) : Option (String × List Char) := do
  if startsTime cs then time? cs
  else
    let (date, rest) ← date? cs
    match rest with
    | sep :: tail =>
      if (sep == 'T' || sep == 't' || sep == ' ') && startsTime tail then do
        let (time, rest) ← time? tail
        let (offset, rest) ← offset? rest
        return (date ++ "T" ++ time ++ offset, rest)
      else return (date, rest)
    | [] => return (date, rest)

end KeyDispatch.Toml
