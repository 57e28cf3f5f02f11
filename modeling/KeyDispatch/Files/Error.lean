/-!
# File errors

Why an operation on a file fails. Some errors are the operating system's and carry its number.
-/

namespace KeyDispatch

/-- Why an operation on a file fails: there is no such file, a directory on the way is none, the
file is a directory, the target is in use as a directory on the way, the path or a name in it is
too long, the path holds the character that ends paths, the bytes are no text, the path names no
file, or a reason that only the operating system knows. -/
inductive FileError where
  | notFound
  | notADirectory
  | isADirectory
  | busy
  | nameTooLong
  | terminatorInPath
  | invalidText
  | noFileName
  | system (text : String)
deriving DecidableEq

namespace FileError

/-- Wording of the error. -/
def message : FileError → String
  | notFound => "No such file or directory (os error 2)"
  | notADirectory => "Not a directory (os error 20)"
  | isADirectory => "Is a directory (os error 21)"
  | busy => "Device or resource busy (os error 16)"
  | nameTooLong => "File name too long (os error 36)"
  | terminatorInPath => "file name contained an unexpected NUL byte"
  | invalidText => "stream did not contain valid UTF-8"
  | noFileName => "output path has no file name"
  | system text => text

end FileError

end KeyDispatch
