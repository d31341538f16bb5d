/-
  Target — why no element can be the target of a change.
-/
import XmlGraft.Edit.Address
import XmlGraft.Text.Quoted

namespace XmlGraft

/-- **Why there is no target.** -/
inductive TargetFault
  /-- A route without steps. -/
  | noSteps
  /-- A part of a written route is not the name of an element. -/
  | badName (name route : Text)
  /-- The address leads to no element. -/
  | nothingAt (address : Address)
  /-- The address leads to no element that was read. -/
  | notRead (address : Address)
  /-- The root element stands in no other that could take it. -/
  | rootElement
  deriving DecidableEq, Repr

/-- The fault in words. -/
def TargetFault.message : TargetFault → String
  | noSteps => "empty path"
  | badName name route =>
    String.ofList (Text.quoted name) ++ " in " ++ String.ofList (Text.quoted route)
      ++ " is not an element name"
  | nothingAt address => "no element at " ++ address.display
  | notRead address => "no parsed element at " ++ address.display
  | rootElement => "the root element cannot be spliced"

end XmlGraft
