/-!
# Failures of files

The ways in which an operation on files fails, in the words of the system that reports them.
-/

namespace RitualGate

/-- Why an operation on files fails. -/
inductive IoError where
  /-- There is nothing at a path. -/
  | notFound
  /-- There is something at a path that should be new. -/
  | alreadyExists
  /-- A path leads through something that is not a directory. -/
  | notDirectory
  | isDirectory
  | noSpace
  | nameTooLong
  /-- A path holds the character zero. -/
  | nulInPath
  /-- Bytes that should be a text are none. -/
  | notText
  /-- Anything else, in the words of the system. -/
  | other (reason : String)
deriving DecidableEq, Repr

namespace IoError

/-- The wording of a failure. -/
def message : IoError → String
  | notFound => "No such file or directory (os error 2)"
  | alreadyExists => "File exists (os error 17)"
  | notDirectory => "Not a directory (os error 20)"
  | isDirectory => "Is a directory (os error 21)"
  | noSpace => "No space left on device (os error 28)"
  | nameTooLong => "File name too long (os error 36)"
  | nulInPath => "file name contained an unexpected NUL byte"
  | notText => "stream did not contain valid UTF-8"
  | other reason => reason

end IoError

end RitualGate
