/-
  Fault — why a step on files does not succeed.
-/
import XmlGraft.Text.Basic

namespace XmlGraft

/-- **Why a step on files does not succeed.** -/
inductive FileFault
  | notFound
  | notADirectory
  | isADirectory
  /-- A name, or a path with all its names, is too long. -/
  | nameTooLong
  /-- The path has a null character, which no name can have. -/
  | nullInName
  /-- The bytes of the file are not UTF-8. -/
  | notText
  /-- Another reason, in the words of the system. -/
  | other (reason : String)
  deriving DecidableEq, Repr

/-- The fault in words. -/
def FileFault.message : FileFault → String
  | notFound => "No such file or directory (os error 2)"
  | notADirectory => "Not a directory (os error 20)"
  | isADirectory => "Is a directory (os error 21)"
  | nameTooLong => "File name too long (os error 36)"
  | nullInName => "file name contained an unexpected NUL byte"
  | notText => "stream did not contain valid UTF-8"
  | other reason => reason

end XmlGraft
