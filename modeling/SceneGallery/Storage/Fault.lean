set_option autoImplicit false

namespace SceneGallery.Storage

/-- Why an operation on files fails. -/
inductive Fault where
  | notFound
  | isDirectory
  /-- A file that can only be read is to be written. -/
  | denied
  /-- A part of the path that has to be a directory is a file. -/
  | notDirectory
  /-- A name in the path, or the path itself, is too long. -/
  | nameTooLong
  | notText
  /-- The path holds a character that no path can hold. -/
  | badPath
  /-- What is to be copied is no file. -/
  | notFile
deriving DecidableEq, Repr

namespace Fault

/-- The kind of a fault. -/
def kindText : Fault → String
  | .notFound => "entity not found"
  | .isDirectory => "is a directory"
  | .denied => "permission denied"
  | .notDirectory => "not a directory"
  | .nameTooLong => "invalid filename"
  | .notText => "invalid data"
  | .badPath | .notFile => "invalid input parameter"

/-- The number and the name of a fault that the operating system found. -/
def systemCode? : Fault → Option (Nat × String)
  | .notFound => some (2, "NotFound")
  | .isDirectory => some (21, "IsADirectory")
  | .denied => some (13, "PermissionDenied")
  | .notDirectory => some (20, "NotADirectory")
  | .nameTooLong => some (36, "InvalidFilename")
  | .notText | .badPath | .notFile => none

/-- What went wrong, in a sentence. -/
def sentence : Fault → String
  | .notFound => "No such file or directory"
  | .isDirectory => "Is a directory"
  | .denied => "Permission denied"
  | .notDirectory => "Not a directory"
  | .nameTooLong => "File name too long"
  | .notText => "stream did not contain valid UTF-8"
  | .badPath => "file name contained an unexpected NUL byte"
  | .notFile => "the source path is neither a regular file nor a symlink to a regular file"

/-- The sentence, with the number of the fault where there is one. -/
def describe (fault : Fault) : String :=
  match fault.systemCode? with
  | some (code, _) => fault.sentence ++ " (os error " ++ toString code ++ ")"
  | none => fault.sentence

/-- The fault as a value with all that is known about it. -/
def shown (fault : Fault) : String :=
  match fault.systemCode? with
  | some (code, kind) =>
    "Os \x7b code: " ++ toString code ++ ", kind: " ++ kind ++ ", message: \"" ++ fault.sentence ++
      "\" \x7d"
  | none =>
    let kind := if fault = .notText then "InvalidData" else "InvalidInput"
    "Error \x7b kind: " ++ kind ++ ", message: \"" ++ fault.sentence ++ "\" \x7d"

end Fault

end SceneGallery.Storage
