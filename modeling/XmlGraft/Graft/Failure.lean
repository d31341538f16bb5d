/-
  Failure — why an update did not come about.

  * `Failure.message`     the failure in words
  * `Failure.cause?`      what it goes back to, where that has words of its own
  * `Failure.inFile`      a document that cannot be read, with the file it stands in
  * `Failure.annotated?`  a document that cannot be read, with the line that is at fault
-/
import XmlGraft.Files.Fault
import XmlGraft.Graft.Basic
import XmlGraft.Markup.Annotated

namespace XmlGraft

/-- **Why an update did not come about.** -/
inductive Failure
  /-- The text is no document; the file it stands in, where that is known. -/
  | document (file : Option Text) (text : Text) (error : Markup.Error)
  | target (fault : TargetFault)
  | settings (fault : SettingsFault)
  | noMarker (attempts : Nat)
  /-- The element that changed could not be laid out. -/
  | unrenderable (error : Markup.Error)
  | unreadable (file : Text) (fault : FileFault)
  | unwritable (file : Text) (fault : FileFault)
  deriving DecidableEq, Repr

namespace Failure

/-- The failure of a graft. -/
def ofGraft : GraftFault → Failure
  | .settings fault => settings fault
  | .target fault => target fault
  | .noMarker attempts => noMarker attempts
  | .unrenderable error => unrenderable error

/-- How a text is called whose file is not known. -/
def sourceName (file : Option Text) : Text := file.getD "input".toList

/-- The failure in words. -/
def message : Failure → String
  | document file _ error =>
    "failed to parse " ++ String.ofList (sourceName file) ++ ": " ++ error.message
  | target fault => "invalid target: " ++ fault.message
  | settings fault => "invalid settings: " ++ fault.message
  | noMarker attempts => s!"could not place a unique splice marker after {attempts} attempts"
  | unrenderable error => "failed to render replacement subtree: " ++ error.message
  | unreadable file fault => "failed to read " ++ String.ofList file ++ ": " ++ fault.message
  | unwritable file fault => "failed to write " ++ String.ofList file ++ ": " ++ fault.message

/-- What the failure goes back to. -/
def cause? : Failure → Option String
  | document _ _ error => some error.message
  | unrenderable error => some error.message
  | unreadable _ fault => some fault.message
  | unwritable _ fault => some fault.message
  | _ => none

/-- **With the file that the document stands in.** -/
def inFile (file : Text) : Failure → Failure
  | document _ text error => document (some file) text error
  | failure => failure

/-- **A document that cannot be read, with the line that is at fault.** -/
def annotated? : Failure → Option Text
  | document file text error => some (error.annotated (sourceName file) text)
  | _ => none

end Failure

end XmlGraft
