/-! Why a file operation is refused, and the text that the system has for each reason. -/

namespace Keyrings

inductive FileError
  | notFound
  | exists
  | notDirectory
  | isDirectory
  | invalidArgument
  | nameTooLong
  | notEmpty
  | nulInName
  | other (text : String)
  deriving DecidableEq

/-- The refusal with an error number of the system; a text tells of those that have no name here. -/
def FileError.ofNumber (number : Nat) (text : String) : FileError :=
  match number with
  | 2 => .notFound
  | 17 => .exists
  | 20 => .notDirectory
  | 21 => .isDirectory
  | 22 => .invalidArgument
  | 36 => .nameTooLong
  | 39 => .notEmpty
  | n => .other (text ++ " (os error " ++ toString n ++ ")")

/-- The system's text for a refusal, with its error number where there is one. -/
def FileError.message : FileError → String
  | .notFound => "No such file or directory (os error 2)"
  | .exists => "File exists (os error 17)"
  | .notDirectory => "Not a directory (os error 20)"
  | .isDirectory => "Is a directory (os error 21)"
  | .invalidArgument => "Invalid argument (os error 22)"
  | .nameTooLong => "File name too long (os error 36)"
  | .notEmpty => "Directory not empty (os error 39)"
  | .nulInName => "file name contained an unexpected NUL byte"
  | .other text => text

end Keyrings
