/-
  Assignment — fields written as `KEY=VALUE`.

  The key ends at the first equals sign; the spaces around it do not count, and something must be
  left of it.  The value is everything after the sign, typed by what it looks like.

  * `Fields.assignment?`     one field
  * `Fields.ofAssignments?`  the fields of a list; a later assignment to a key wins
-/
import XmlGraft.Edit.Fields
import XmlGraft.Text.Blank

namespace XmlGraft

/-- **What is wrong with an assignment.** -/
inductive AssignmentFault
  /-- There is no equals sign. -/
  | noValue (given : Text)
  /-- Nothing but spaces stands before the equals sign. -/
  | noKey (given : Text)
  deriving DecidableEq, Repr

/-- The fault in words. -/
def AssignmentFault.message : AssignmentFault → String
  | noValue given => "Expected KEY=VALUE, got '" ++ String.ofList given ++ "'"
  | noKey given => "Missing key in '" ++ String.ofList given ++ "'"

namespace Fields

/-- **The field that an assignment is.** -/
def assignment? (given : Text) : Except AssignmentFault (Text × Scalar) :=
  match Text.cut? ['='] given with
  | none => .error (.noValue given)
  | some (key, value) =>
    if (Text.trim key).isEmpty then .error (.noKey given)
    else .ok (Text.trim key, .ofText value)

/-- **The fields of a list of assignments**, set one after the other; the first fault counts. -/
def ofAssignments? (given : List Text) : Except AssignmentFault Fields := do
  return ofPairs (← given.mapM assignment?)

end Fields

end XmlGraft
