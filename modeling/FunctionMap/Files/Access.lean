import FunctionMap.Text.Utf8

/-!
# Access to files

What a run asks of the files around it: whether a path is a file, its bytes, and to put bytes in its
place. The questions are asked in any monad, so the same run works on the files of a machine and on a
`FileTree`.
-/

namespace FunctionMap

/-- Why a file was not read or written. -/
inductive FileError where
  | notFound | isDirectory | notADirectory | nameTooLong | holdsNul
  | other (cause : String)
  deriving DecidableEq, Repr

/-- The wording of an error. -/
def FileError.message : FileError → String
  | .notFound => "No such file or directory (os error 2)"
  | .isDirectory => "Is a directory (os error 21)"
  | .notADirectory => "Not a directory (os error 20)"
  | .nameTooLong => "File name too long (os error 36)"
  | .holdsNul => "file name contained an unexpected NUL byte"
  | .other cause => cause

/-- The operations on files in a monad. -/
structure FileAccess (m : Type → Type) where
  isFile : String → m Bool
  read : String → m (Except FileError Bytes)
  write : String → Bytes → m (Except FileError Unit)

end FunctionMap
