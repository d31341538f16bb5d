/-
  Run — a command line carried out.

  A command first works out its change: the route, then the values, then the settings.  Only then is
  the file looked at.  A dry run shows the new text; any run shows the report, if that is asked for.

  * `Job`       a command whose arguments make sense
  * `Job.run`   what the command shows
  * `execute`   a command line, with what it writes to its outputs and its exit code

  The exit code is 0 for a command that did its work and for the help that was asked for, 1 for a
  command that failed, and 2 for a command line that is none.  What a command shows and what it
  changes are kept apart: `Outcome` is the former, and the latter is the affair of the `Storage`,
  which a command uses in the order that is fixed here.
-/
import XmlGraft.Command.Arguments
import XmlGraft.Data.Json
import XmlGraft.Edit.Assignment
import XmlGraft.Files.Update

namespace XmlGraft

/-- **Why a command fails.** -/
inductive CommandFault
  | assignment (fault : AssignmentFault)
  | failure (failure : Failure)
  deriving DecidableEq, Repr

namespace CommandFault

/-- The fault in words. -/
def message : CommandFault → String
  | assignment fault => fault.message
  | failure f => f.message

/-- What the fault goes back to. -/
def cause? : CommandFault → Option String
  | assignment _ => none
  | failure f => f.cause?

/-- A document that cannot be read, with the line that is at fault. -/
def annotated? : CommandFault → Option Text
  | assignment _ => none
  | failure f => f.annotated?

/-- A text four blanks further in. -/
def inset (t : Text) : Text :=
  t.flatMap fun c => if c = '\n' then '\n' :: List.replicate 4 ' ' else [c]

/-- **The fault as a command shows it**: the line that is at fault, the message, the cause. -/
def shown (f : CommandFault) : Text :=
  (f.annotated?.elim [] fun report => report ++ ['\n'])
    ++ "Error: ".toList ++ f.message.toList ++ ['\n']
    ++ f.cause?.elim [] fun cause =>
      "\nCaused by:\n    ".toList ++ inset cause.toList ++ ['\n']

end CommandFault

/-- **A job**: a change of a file, up to the settings. -/
structure Job where
  file : Text
  change : Settings → (Nat → Text) → Change
  manner : Manner

namespace Job

/-- The fields of assignments. -/
def fields (assignments : List Text) : Except CommandFault Fields :=
  (Fields.ofAssignments? assignments).mapError .assignment

/-- The fields of assignments, if there are any. -/
def fields? (assignments : List Text) : Except CommandFault (Option Fields) :=
  if assignments.isEmpty then .ok none else (fields assignments).map some

/-- The job of `set`. -/
def ofSet (file path : Text) (assignments : List Text) (manner : Manner) :
    Except CommandFault Job := do
  let route ← (Route.ofText? path).mapError fun fault => .failure (.target fault)
  let fields ← fields assignments
  return ⟨file, Change.ofRoute route fields, manner⟩

/-- The job of `plugin`. -/
def ofPlugin (file : Text) (coordinates : Maven.Coordinates) (assignments deployments : List Text)
    (manner : Manner) : Except CommandFault Job := do
  let application ← fields? assignments
  let deployment ← fields? deployments
  return ⟨file, Change.ofPlugin ⟨coordinates, application, deployment⟩, manner⟩

variable {m : Type → Type} [Monad m] [Storage m]

/-- The settings that the job works with. -/
def settings (manner : Manner) : ExceptT Failure m Settings := do
  let s ← match manner.settings with
    | some file => Settings.load file
    | none => pure .standard
  return if manner.inferUnit then { s with inferUnit := true } else s

/-- The report, if it is to be shown. -/
def shownReport (manner : Manner) (r : Report) : Text :=
  if manner.report then r.toData.json ++ ['\n'] else []

/-- **Do the job**; the answer is what the command shows. -/
def run (job : Job) (markers : Nat → Text) : ExceptT Failure m Text := do
  -- the settings file is read before the document, so its faults come first
  let change := job.change (← settings job.manner) markers
  if job.manner.dryRun then
    let u ← previewFile change job.file
    return u.text ++ shownReport job.manner u.report
  else
    return shownReport job.manner (← updateFile change job.file)

end Job

/-- **What a command leaves behind**, apart from files. -/
structure Outcome where
  code : Nat
  /-- The standard output. -/
  out : Text
  /-- The standard error output. -/
  err : Text
  deriving DecidableEq, Repr

namespace Outcome

/-- The command did its work. -/
def success (out : Text) : Outcome := ⟨0, out, []⟩

/-- The command failed. -/
def failed (fault : CommandFault) : Outcome := ⟨1, [], fault.shown⟩

/-- What `--version` shows. -/
def versionText : Text := "xmlsplice 0.1.0\n".toList

/-- What `--help` shows. -/
def helpText : Text :=
  ("Usage: xmlsplice set FILE --path PATH [--set KEY=VALUE]... [OPTIONS]\n"
    ++ "       xmlsplice plugin FILE --group-id ID --artifact-id ID --plugin-version VERSION\n"
    ++ "                 [--set KEY=VALUE]... [--deploy KEY=VALUE]... [OPTIONS]\n"
    ++ "       xmlsplice --version\n\n"
    ++ "Options:\n"
    ++ "  --settings FILE  Settings for indentation and line ends (TOML)\n"
    ++ "  --infer-indent   Take the indent unit from the file\n"
    ++ "  --dry-run        Print the new text and leave the file alone\n"
    ++ "  --json           Print a JSON report\n").toList

/-- A command line that is not carried out. -/
def refused : Refusal → Outcome
  | .help => success helpText
  | .usage reason => ⟨2, [], ("error: " ++ reason ++ "\n").toList⟩

end Outcome

variable {m : Type → Type} [Monad m] [Storage m]

/-- A job that makes sense, or the fault in its arguments. -/
def runJob (job : Except CommandFault Job) (markers : Nat → Text) : m Outcome := do
  match job with
  | .error fault => return .failed fault
  | .ok job =>
    match ← (job.run markers : ExceptT Failure m Text).run with
    | .ok out => return .success out
    | .error f => return .failed (.failure f)

/-- What an invocation asks for, carried out. -/
def Invocation.run (markers : Nat → Text) : Invocation → m Outcome
  | version => return .success Outcome.versionText
  | set file path assignments manner => runJob (Job.ofSet file path assignments manner) markers
  | plugin file coordinates assignments deployments manner =>
    runJob (Job.ofPlugin file coordinates assignments deployments manner) markers

/-- **A command line, carried out.** -/
def execute (arguments : List Text) (markers : Nat → Text) : m Outcome :=
  match Invocation.ofArguments arguments with
  | .ok invocation => invocation.run markers
  | .error refusal => return .refused refusal

end XmlGraft
