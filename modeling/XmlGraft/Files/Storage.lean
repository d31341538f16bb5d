/-
  Storage — where files are kept, and how one is replaced.

  A file is replaced as a whole.  The new text goes into a draft, a temporary file in the directory
  of the old one; when it is complete, the draft takes the place of the old file in one step.
  Whoever reads the file sees the old text or the new one, and a step that fails leaves the old one.
  The permissions of the old file carry over.

  The steps are those of a `Storage`; what they do in it, and whether they succeed, is its affair.

  * `Storage`   the steps
  * `replace`   a file with a new text

  There are two storages: the files of the system, and a disk that is a value, on which any step can
  be made to fail.  What `replace` leaves behind is proved for the second; the first is used by the
  tool.  The draft has to be in the directory of the file because only within a directory is a
  rename one step.
-/
import XmlGraft.Files.Fault

namespace XmlGraft

/-- **Storage**: a place where files are kept, by the steps in which it is used.  A step that does
    not succeed says why. -/
class Storage (m : Type → Type) where
  /-- A temporary file that is being written. -/
  Draft : Type
  /-- The text of a file. -/
  read : Text → m (Except FileFault Text)
  /-- A new draft in a directory. -/
  create : Text → m (Except FileFault Draft)
  /-- Write the text of a draft. -/
  write : Draft → Text → m (Except FileFault Unit)
  /-- Wait until the draft is stored. -/
  sync : Draft → m (Except FileFault Unit)
  /-- The permissions of a file, if it is there. -/
  permissions? : Text → m (Option Nat)
  /-- Give a draft permissions. -/
  setPermissions : Draft → Nat → m (Except FileFault Unit)
  /-- Put a draft in the place of a file. -/
  rename : Draft → Text → m (Except FileFault Unit)
  /-- Remove a draft. -/
  discard : Draft → m Unit

namespace Storage

/-- The names on the way to a file; a dot is no name. -/
def components (file : Text) : List Text :=
  (Text.splitOn '/' file).filter fun name => !name.isEmpty && name != ['.']

/-- **The directory of a file**, as far as the spelling of the file tells it. -/
def directoryOf (file : Text) : Text :=
  let above := Text.join ['/'] (components file).dropLast
  if file.head? = some '/' then '/' :: above
  else if above.isEmpty then ['.']
  else above

variable {m : Type → Type} [Monad m] [Storage m]

/-- Give a draft the permissions of the file, if the file is there. -/
def keepPermissions (draft : Draft m) (file : Text) : ExceptT FileFault m Unit := do
  match ← (permissions? file : m (Option Nat)) with
  | none => return ()
  | some mode => ExceptT.mk (setPermissions draft mode)

/-- Complete a draft and put it in the place of the file. -/
def finish (draft : Draft m) (file text : Text) : ExceptT FileFault m Unit := do
  ExceptT.mk (write draft text)
  ExceptT.mk (sync draft)
  keepPermissions draft file
  ExceptT.mk (rename draft file)

/-- **Replace a file with a new text**; the draft goes away when a step fails. -/
def replace (file text : Text) : m (Except FileFault Unit) := do
  match ← create (directoryOf file) with
  | .error fault => return .error fault
  | .ok draft =>
    let done ← (finish draft file text).run
    -- after the rename the draft is the file, and must not be removed
    if done.isOk then return done
    discard draft
    return done

end Storage

end XmlGraft
