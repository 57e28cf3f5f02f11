import KeyDispatch.Text.Hex

/-!
# Strings, keys and blanks of TOML

A `Reader` takes a piece off the front of a text, or refuses the text. The readers of this module
know the four forms of strings, bare and dotted keys, and what may stand between values.
-/

namespace KeyDispatch.Toml

/-- A piece at the front of a text and what follows it. -/
abbrev Reader (α : Type) := List Char → Option (α × List Char)

/-- Blanks within a line. -/
def isSpace (c : Char) : Bool := c == ' ' || c == '\t'

/-- Characters of a comment: anything but control characters, of which only the tab may occur. -/
def isCommentChar (c : Char) : Bool := c == '\t' || (0x20 ≤ c.toNat && c.toNat ≠ 0x7F)

/-- Characters that stand for themselves between double quotes. -/
def isBasicChar (c : Char) : Bool := isCommentChar c && c != '"' && c != '\\'

/-- Characters that stand for themselves between single quotes. -/
def isLiteralChar (c : Char) : Bool := isCommentChar c && c != '\''

/-- Characters of a bare key. -/
def isBareChar (c : Char) : Bool := c.isAlphanum || c == '_' || c == '-'

/-- The text after its leading blanks. -/
def skipSpace (cs : List Char) : List Char := cs.dropWhile isSpace

/-- The text after the end of a line, which may hold blanks and a comment; the end of the text
ends a line too. -/
def lineEnd? (cs : List Char) : Option (List Char) :=
  let rest := skipSpace cs
  let rest := if rest.head? == some '#' then rest.dropWhile isCommentChar else rest
  match rest with
  | [] => some []
  | '\n' :: cs => some cs
  | '\r' :: '\n' :: cs => some cs
  | _ => none

/-- The text after blanks, line ends and comments. A comment ends with its line. -/
def skipTrivia (inComment : Bool) : List Char → Option (List Char)
  | [] => if inComment then none else some []
  | '\n' :: cs => skipTrivia false cs
  | '\r' :: '\n' :: cs => skipTrivia false cs
  | c :: cs =>
    if inComment then if isCommentChar c then skipTrivia true cs else none
    else if c = '#' then skipTrivia true cs
    else if isSpace c then skipTrivia false cs
    else some (c :: cs)

/-- The character that a letter stands for after a backslash. -/
def escape? (c : Char) : Option Char :=
  match c with
  | 'b' => some '\x08'
  | 't' => some '\t'
  | 'n' => some '\n'
  | 'f' => some '\x0c'
  | 'r' => some '\r'
  | '"' => some '"'
  | '\\' => some '\\'
  | _ => none

/-- The character of a position written in hexadecimal, surrogates not being characters. -/
def scalar? (digits : List Char) : Option Char :=
  let n := Text.hexValue digits
  if digits.all Text.isHexDigit && (n < 0xD800 || (0xE000 ≤ n && n < 0x110000)) then
    some (Char.ofNat n)
  else none

/-- The rest of a string in double quotes, with the reverse of what it holds so far. -/
def basicRest (acc : List Char) : Reader (List Char)
  | '"' :: cs => some (acc.reverse, cs)
  | '\\' :: 'u' :: a :: b :: c :: d :: cs =>
    (scalar? [a, b, c, d]).bind fun ch => basicRest (ch :: acc) cs
  | '\\' :: 'U' :: a :: b :: c :: d :: e :: f :: g :: h :: cs =>
    (scalar? [a, b, c, d, e, f, g, h]).bind fun ch => basicRest (ch :: acc) cs
  | '\\' :: c :: cs => (escape? c).bind fun ch => basicRest (ch :: acc) cs
  | c :: cs => if isBasicChar c then basicRest (c :: acc) cs else none
  | [] => none

/-- Where the reader of a multi-line string stands: in the text, behind a backslash on the way to
the end of the line, or in the blanks and line ends after that. -/
inductive FoldState where
  | inText
  | atLineEnd
  | skipping
deriving DecidableEq

/-- The rest of a multi-line string in double quotes. Up to two quotes may stand right before the
three that end it. -/
def multiBasicRest (state : FoldState) (acc : List Char) : Reader (List Char)
  | [] => none
  | '\r' :: '\n' :: cs =>
    match state with
    | .inText => multiBasicRest .inText ('\n' :: acc) cs
    | _ => multiBasicRest .skipping acc cs
  | '\n' :: cs =>
    match state with
    | .inText => multiBasicRest .inText ('\n' :: acc) cs
    | _ => multiBasicRest .skipping acc cs
  | '"' :: '"' :: '"' :: '"' :: '"' :: cs =>
    if state = .atLineEnd then none else some (('"' :: '"' :: acc).reverse, cs)
  | '"' :: '"' :: '"' :: '"' :: cs =>
    if state = .atLineEnd then none else some (('"' :: acc).reverse, cs)
  | '"' :: '"' :: '"' :: cs => if state = .atLineEnd then none else some (acc.reverse, cs)
  | '\\' :: 'u' :: a :: b :: c :: d :: cs =>
    if state = .atLineEnd then none
    else (scalar? [a, b, c, d]).bind fun ch => multiBasicRest .inText (ch :: acc) cs
  | '\\' :: 'U' :: a :: b :: c :: d :: e :: f :: g :: h :: cs =>
    if state = .atLineEnd then none
    else (scalar? [a, b, c, d, e, f, g, h]).bind fun ch => multiBasicRest .inText (ch :: acc) cs
  | '\\' :: c :: cs =>
    if state = .atLineEnd then none
    else if isSpace c then multiBasicRest .atLineEnd acc cs
    else if c = '\n' then multiBasicRest .skipping acc cs
    else if c = '\r' ∧ cs.head? = some '\n' then multiBasicRest .atLineEnd acc cs
    else (escape? c).bind fun ch => multiBasicRest .inText (ch :: acc) cs
  | c :: cs =>
    if isSpace c ∧ state ≠ .inText then multiBasicRest state acc cs
    else if state = .atLineEnd then none
    else if isBasicChar c ∨ c = '"' then multiBasicRest .inText (c :: acc) cs
    else none

/-- The rest of a string in single quotes. -/
def literalRest (cs : List Char) : Option (List Char × List Char) :=
  match cs.dropWhile isLiteralChar with
  | '\'' :: rest => some (cs.takeWhile isLiteralChar, rest)
  | _ => none

/-- The rest of a multi-line string in single quotes. -/
def multiLiteralRest (acc : List Char) : Reader (List Char)
  | '\r' :: '\n' :: cs => multiLiteralRest ('\n' :: acc) cs
  | '\n' :: cs => multiLiteralRest ('\n' :: acc) cs
  | '\'' :: '\'' :: '\'' :: '\'' :: '\'' :: cs => some (('\'' :: '\'' :: acc).reverse, cs)
  | '\'' :: '\'' :: '\'' :: '\'' :: cs => some (('\'' :: acc).reverse, cs)
  | '\'' :: '\'' :: '\'' :: cs => some (acc.reverse, cs)
  | c :: cs => if isCommentChar c then multiLiteralRest (c :: acc) cs else none
  | [] => none

/-- The text after one line end, which does not count at the start of a multi-line string. -/
def skipFirstLineEnd : List Char → List Char
  | '\n' :: cs => cs
  | '\r' :: '\n' :: cs => cs
  | cs => cs

/-- A string in any of its four forms. -/
def string? (cs : List Char) : Option (String × List Char) :=
  match cs with
  | '"' :: '"' :: '"' :: cs => finish (multiBasicRest .inText [] (skipFirstLineEnd cs))
  | '"' :: cs => finish (basicRest [] cs)
  | '\'' :: '\'' :: '\'' :: cs => finish (multiLiteralRest [] (skipFirstLineEnd cs))
  | '\'' :: cs => finish (literalRest cs)
  | _ => none
where
  finish (r : Option (List Char × List Char)) : Option (String × List Char) :=
    r.map fun p => (String.ofList p.1, p.2)

/-- One part of a key: a string on one line, or a run of bare characters. -/
def keyPart? (cs : List Char) : Option (String × List Char) :=
  match cs with
  | '"' :: cs => (basicRest [] cs).map fun p => (String.ofList p.1, p.2)
  | '\'' :: cs => (literalRest cs).map fun p => (String.ofList p.1, p.2)
  | cs =>
    let run := cs.takeWhile isBareChar
    if run.isEmpty then none else some (String.ofList run, cs.dropWhile isBareChar)

/-- Depth at which the format stops: no value and no key has so many levels. -/
def depthLimit : Nat := 80

/-- The parts of a dotted key, with at most `n` of them. -/
def keyParts? : Nat → List Char → Option (List String × List Char)
  | 0, _ => none
  | n + 1, cs => do
    let (part, rest) ← keyPart? (skipSpace cs)
    match skipSpace rest with
    | '.' :: rest => do
      let (parts, rest) ← keyParts? n rest
      return (part :: parts, rest)
    | rest => return ([part], rest)

/-- A key, with the blanks around it. -/
def key? (cs : List Char) : Option (List String × List Char) := keyParts? (depthLimit - 1) cs

end KeyDispatch.Toml
