/-
  Update — changes of documents that are kept in files.

  A change is worked out from the text that the file holds.  The file is replaced only if the text
  is another one; a change that fails leaves it alone.

  * `previewFile`    what a change makes of a file
  * `updateFile`     the change, carried out
  * `Settings.load`  the settings that a settings file holds

  A change is a function of the text, with its settings and its markers fixed before, so a preview
  and the real thing work out the same from the same text.  All reading comes before the first step
  that writes.
-/
import XmlGraft.Files.Storage
import XmlGraft.Graft.Maven

namespace XmlGraft

/-- **A change** of the text of a document. -/
abbrev Change := Text → Except Failure Updated

/-- The change that writes fields into the element at the end of a route. -/
def Change.ofRoute (route : Route) (fields : Fields) (settings : Settings) (markers : Nat → Text) :
    Change :=
  fun text => update text route fields settings markers

/-- The change of a plugin's configuration. -/
def Change.ofPlugin (u : Maven.PluginUpdate) (settings : Settings) (markers : Nat → Text) :
    Change :=
  fun text => u.apply text settings markers

variable {m : Type → Type} [Monad m] [Storage m]

/-- The text of a file. -/
def fileText (file : Text) : ExceptT Failure m Text := do
  match ← (Storage.read file : m (Except FileFault Text)) with
  | .ok text => return text
  | .error fault => throw (.unreadable file fault)

/-- Replace the text of a file. -/
def replaceFile (file text : Text) : ExceptT Failure m Unit := do
  match ← (Storage.replace file text : m (Except FileFault Unit)) with
  | .ok () => return ()
  | .error fault => throw (.unwritable file fault)

/-- **What a change makes of a file.** -/
def previewFile (change : Change) (file : Text) : ExceptT Failure m Updated := do
  let text ← fileText file
  ExceptT.mk (pure ((change text).mapError (Failure.inFile file)))

/-- Write what a change came to, unless it is what the file holds. -/
def commit (file : Text) (u : Updated) : ExceptT Failure m Report := do
  if u.report.changed then replaceFile file u.text
  return u.report

/-- **A change of a file, carried out.** -/
def updateFile (change : Change) (file : Text) : ExceptT Failure m Report := do
  let text ← fileText file
  let u ← ExceptT.mk (pure ((change text).mapError (Failure.inFile file)))
  commit file u

/-- **The settings that a settings file holds.** -/
def Settings.load (file : Text) : ExceptT Failure m Settings := do
  let text ← fileText file
  match Settings.ofToml text with
  | .ok settings => return settings
  | .error fault => throw (.settings (.inFile file fault))

end XmlGraft
