set_option autoImplicit false

/-! # Faults of file operations -/

namespace JavaAtlas

/-- Why a file operation or the start of a program fails. -/
inductive FileFault where
  | notFound
  | badExecutable
  | permissionDenied
  | alreadyExists
  | notDirectory
  | isDirectory
  | nameTooLong
  | notEmpty
  | invalidName
  | notText
  | noWholeTree
deriving DecidableEq, Repr

namespace FileFault

/-- The text of the fault. -/
def message : FileFault → String
  | notFound => "No such file or directory (os error 2)"
  | badExecutable => "Exec format error (os error 8)"
  | permissionDenied => "Permission denied (os error 13)"
  | alreadyExists => "File exists (os error 17)"
  | notDirectory => "Not a directory (os error 20)"
  | isDirectory => "Is a directory (os error 21)"
  | nameTooLong => "File name too long (os error 36)"
  | notEmpty => "Directory not empty (os error 39)"
  | invalidName => "file name contained an unexpected NUL byte"
  | notText => "stream did not contain valid UTF-8"
  | noWholeTree => "failed to create whole tree"

end FileFault

end JavaAtlas
