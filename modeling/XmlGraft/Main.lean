/-
  Main — the command line tool.

  The files are those of the system.  Of a file's permissions the system tells nothing here, so a
  new file has the ones that the system gives it.
-/
import XmlGraft.Command.Run
import XmlGraft.Text.Utf8

namespace XmlGraft.Main

/-- The fault that a number of the system stands for; some steps tell it with a minus sign. -/
def numbered? (number : UInt32) : Option FileFault :=
  match min number.toNat (0 - number).toNat with
  | 20 => some .notADirectory
  | 21 => some .isADirectory
  | 36 => some .nameTooLong
  | _ => none

/-- A fault of the system. -/
def faultOf : IO.Error → FileFault
  | .noFileOrDirectory .. => .notFound
  | .inappropriateType file number details =>
    (numbered? number).getD (.other (toString (IO.Error.inappropriateType file number details)))
  | .invalidArgument file number details =>
    (numbered? number).getD (.other (toString (IO.Error.invalidArgument file number details)))
  | fault => .other (toString fault)

/-- A step on the files of the system. -/
def attempt {α : Type} (act : IO α) : IO (Except FileFault α) := do
  match ← act.toBaseIO with
  | .ok a => return .ok a
  | .error fault => return .error (faultOf fault)

/-- Some random bytes in hexadecimal digits. -/
def randomDigits (count : Nat) : IO String := do
  let bytes ← IO.getRandomBytes count.toUSize
  return String.join (bytes.toList.map fun b =>
    String.ofList [Nat.digitChar (b.toNat / 16), Nat.digitChar (b.toNat % 16)])

/-- The steps on the files of the system. -/
instance : Storage IO where
  Draft := String
  read path := do
    match ← attempt (IO.FS.readBinFile (String.ofList path)) with
    | .error fault => return .error fault
    | .ok bytes =>
      match Text.ofUtf8? bytes with
      | some text => return .ok text
      | none => return .error .notText
  create directory := attempt do
    let draft := String.ofList directory ++ "/.draft" ++ (← randomDigits 8)
    let _ ← IO.FS.Handle.mk draft .writeNew
    return draft
  write draft text := attempt (IO.FS.writeBinFile draft text.utf8)
  sync draft := attempt do
    let handle ← IO.FS.Handle.mk draft .append
    handle.flush
  permissions? _ := return none
  setPermissions _ _ := return .ok ()
  rename draft path := attempt (IO.FS.rename draft (String.ofList path))
  discard draft := do
    let _ ← attempt (IO.FS.removeFile draft)

/-- Markers that nobody can foresee. -/
def drawMarkers : IO (List Text) :=
  (List.range Graft.maxAttempts).mapM fun _ => do
    return ("@XMLGRAFT_" ++ (← randomDigits 16) ++ "@").toList

/-- Carry out a command line. -/
def run (arguments : List String) : IO UInt32 := do
  let markers ← drawMarkers
  let outcome ←
    (execute (arguments.map String.toList) fun n => (markers[n]?).getD [] : IO Outcome)
  (← IO.getStdout).putStr (String.ofList outcome.out)
  (← IO.getStderr).putStr (String.ofList outcome.err)
  return outcome.code.toUInt32

end XmlGraft.Main

/-- The command line tool. -/
def main (arguments : List String) : IO UInt32 := XmlGraft.Main.run arguments
