/-!
# Paths

Paths are texts with slashes. `segments` are the steps of a path, `split?` takes off the name of the
file that it leads to, and `join` puts a path behind a directory. The operating system bounds the
bytes of a path and of each name in it, and takes the character of code zero for a path's end.
-/

namespace KeyDispatch.Path

/-- The path starts at the root. -/
def isAbsolute (path : String) : Bool := path.toList.head? == some '/'

/-- The path ends in a slash, so that it can only lead to a directory. -/
def endsInSlash (path : String) : Bool := path.toList.getLast? == some '/'

/-- Most bytes that a name may have. -/
def nameLimit : Nat := 255

/-- Most bytes that a path may have. -/
def pathLimit : Nat := 4095

/-- The path holds the character that ends paths. -/
def holdsTerminator (path : String) : Bool := path.toList.contains '\x00'

/-- The steps of a path whose first step began with the reverse of `acc`. -/
def segmentsFrom (acc : List Char) : List Char → List String
  | [] => if acc.isEmpty then [] else [String.ofList acc.reverse]
  | c :: cs =>
    if c = '/' then
      if acc.isEmpty then segmentsFrom [] cs
      else String.ofList acc.reverse :: segmentsFrom [] cs
    else segmentsFrom (c :: acc) cs

/-- The steps of a path. -/
def segments (path : String) : List String := segmentsFrom [] path.toList

/-- A reversed path without the slashes and lone dots at its end. -/
def dropIdle : List Char → List Char
  | '/' :: cs => dropIdle cs
  | '.' :: '/' :: cs => dropIdle cs
  | cs => cs

/-- The directory of a path, given what stands before its name, reversed. -/
def directoryOf (path : String) (back : List Char) : String :=
  let directory := dropIdle back
  if directory.isEmpty && isAbsolute path then "/" else String.ofList directory.reverse

/-- The directory of the file that a path leads to, and the file's name. The root, and paths that
end in a step to the same or the parent directory, lead to no file of their own. -/
def split? (path : String) : Option (String × String) :=
  let back := dropIdle path.toList.reverse
  let name := String.ofList (back.takeWhile (· != '/')).reverse
  if name = "" ∨ name = "." ∨ name = ".." then none
  else some (directoryOf path (back.dropWhile (· != '/')), name)

/-- The path `rest` taken from the directory `base`. -/
def join (base rest : String) : String :=
  if isAbsolute rest then rest
  else if base.isEmpty || endsInSlash base then base ++ rest
  else base ++ "/" ++ rest

end KeyDispatch.Path
