import KeyDispatch.Files.Path
import KeyDispatch.Files.Store

/-!
# Disks

A `Disk` is a file system held as a value: the files and directories by location, and the working
directory. Paths are resolved step by step, every step but the last leading through a directory. The
root directory is always there.
-/

namespace KeyDispatch

/-- What stands at a location. -/
inductive Node where
  | file (content : ByteArray)
  | directory

/-- Two files are the same node if their bytes are the same. -/
theorem Node.file_eq_iff {a b : ByteArray} : a.data = b.data ↔ Node.file a = Node.file b := by
  constructor
  · intro h
    exact congrArg Node.file (ByteArray.ext h)
  · intro h
    exact congrArg ByteArray.data (Node.file.inj h)

instance : DecidableEq Node
  | .file a, .file b => decidable_of_iff (a.data = b.data) Node.file_eq_iff
  | .file _, .directory => isFalse Node.noConfusion
  | .directory, .file _ => isFalse Node.noConfusion
  | .directory, .directory => isTrue rfl

/-- A place in the directory tree: the steps from the root. -/
abbrev Location := List String

/-- A file system without links. -/
structure Disk where
  nodes : List (Location × Node)
  workingDirectory : Location

namespace Disk

/-- What stands at a location, if anything. -/
def node? (d : Disk) (l : Location) : Option Node :=
  if l.isEmpty then some .directory else (d.nodes.find? fun e => e.1 == l).map (·.2)

/-- The entries with a node put at a location. -/
def putNode (l : Location) (n : Node) : List (Location × Node) → List (Location × Node)
  | [] => [(l, n)]
  | e :: rest => if e.1 = l then (l, n) :: rest else e :: putNode l n rest

/-- The disk with a node at a location. -/
def put (d : Disk) (l : Location) (n : Node) : Disk := { d with nodes := putNode l n d.nodes }

/-- The disk with nothing at a location. -/
def erase (d : Disk) (l : Location) : Disk := { d with nodes := d.nodes.filter fun e => e.1 != l }

/-- The location that steps lead to from another one. The location itself need not exist. -/
def walk (d : Disk) (l : Location) : List String → Except FileError Location
  | [] => .ok l
  | step :: rest =>
    match d.node? l with
    | none => .error .notFound
    | some (.file _) => .error .notADirectory
    | some .directory =>
      if step = "." then d.walk l rest
      else if step = ".." then d.walk l.dropLast rest
      else if Path.nameLimit < step.utf8ByteSize then .error .nameTooLong
      else d.walk (l ++ [step]) rest

/-- The location that a path leads to. -/
def resolve (d : Disk) (path : String) : Except FileError Location :=
  if Path.holdsTerminator path then .error .terminatorInPath
  else if path.isEmpty then .error .notFound
  else if Path.pathLimit < path.utf8ByteSize then .error .nameTooLong
  else d.walk (if Path.isAbsolute path then [] else d.workingDirectory) (Path.segments path)

/-- What stands at the end of a path. A slash at the end asks for a directory. -/
def look (d : Disk) (path : String) : Except FileError (Location × Node) :=
  match d.resolve path with
  | .error e => .error e
  | .ok l =>
    match d.node? l with
    | none => .error .notFound
    | some (.file content) =>
      if Path.endsInSlash path then .error .notADirectory else .ok (l, .file content)
    | some .directory => .ok (l, .directory)

/-- The path leads to a regular file. -/
def isFile (d : Disk) (path : String) : Bool :=
  match d.look path with
  | .ok (_, .file _) => true
  | _ => false

/-- The path leads to a file or a directory. -/
def pathExists (d : Disk) (path : String) : Bool :=
  match d.look path with
  | .ok _ => true
  | .error _ => false

/-- The text of a file. -/
def readText (d : Disk) (path : String) : Except FileError String :=
  match d.look path with
  | .error e => .error e
  | .ok (_, .directory) => .error .isADirectory
  | .ok (_, .file content) =>
    match String.fromUTF8? content with
    | some text => .ok text
    | none => .error .invalidText

/-- The location of a file to be written. -/
def target (d : Disk) (path : String) : Except FileError Location :=
  match d.resolve path with
  | .error e => .error e
  | .ok l =>
    match d.node? l with
    | some .directory => .error .isADirectory
    | some (.file _) => if Path.endsInSlash path then .error .notADirectory else .ok l
    | none => if Path.endsInSlash path then .error .isADirectory else .ok l

/-- The location of a file to be moved over. The path must end in a name. -/
def moveTarget (d : Disk) (path : String) : Except FileError Location :=
  match d.resolve path with
  | .error e => .error e
  | .ok l =>
    if (Path.segments path).getLast?.any (fun s => s == "." || s == "..") then .error .busy
    else if Path.endsInSlash path then .error .notADirectory
    else
      match d.node? l with
      | some .directory => .error .isADirectory
      | _ => .ok l

/-- The disk with the text of a file replaced. -/
def writeText (d : Disk) (path text : String) : Except FileError Disk :=
  match d.target path with
  | .error e => .error e
  | .ok l => .ok (d.put l (.file text.toUTF8))

/-- The disk with a file moved over another path. -/
def rename (d : Disk) (old new : String) : Except FileError Disk :=
  match d.look old with
  | .error e => .error e
  | .ok (_, .directory) => .error .isADirectory
  | .ok (l, .file content) =>
    match d.moveTarget new with
    | .error e => .error e
    | .ok l' => .ok ((d.erase l).put l' (.file content))

/-- The disk with a file removed. -/
def remove (d : Disk) (path : String) : Except FileError Disk :=
  match d.look path with
  | .error e => .error e
  | .ok (_, .directory) => .error .isADirectory
  | .ok (l, .file _) => .ok (d.erase l)

/-- A change of the disk that leaves it as it is on failure. -/
def change (f : Disk → Except FileError Disk) : StateM Disk (Except FileError Unit) := fun d =>
  match f d with
  | .error e => (.error e, d)
  | .ok d' => (.ok (), d')

instance : FileStore (StateM Disk) where
  isFile path := return (← get).isFile path
  pathExists path := return (← get).pathExists path
  readText path := return (← get).readText path
  writeText path text := change fun d => d.writeText path text
  rename old new := change fun d => d.rename old new
  remove path := change fun d => d.remove path

end Disk

end KeyDispatch
