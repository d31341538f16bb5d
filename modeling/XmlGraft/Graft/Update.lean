/-
  Update — fields written into the element at the end of a route, in the text of a document.

  The route is walked from the root element and built where it does not exist; the fields are
  written into the element it leads to; the change is grafted into the text.  An update that finds
  everything in place gives the text back.

  * `update`        the new text, with a report of what was done
  * `Report`        what was done
  * `Report.toData` the report as data; what there is none of is left out

  Once the text is read, the first two parts change a tree and cannot fail for a route with steps;
  the last one changes the text and may.  Nothing of the tree is kept: the next update reads the new
  text, and what was created is then an element like any other.
-/
import XmlGraft.Edit.Route
import XmlGraft.Graft.Failure

namespace XmlGraft

open Markup

/-- **Report**: what an update did. -/
structure Report where
  changed : Bool
  /-- The names of the elements that were created, outermost first. -/
  created : List Text
  /-- The name of the element that was laid out anew. -/
  grafted : Option Text
  /-- Where the element that it stands in was read. -/
  anchor : Option Position
  deriving DecidableEq, Repr

/-- **The report as data.** -/
def Report.toData (r : Report) : Data :=
  .table ([("changed".toList, .truth r.changed), ("created".toList, .list (r.created.map .text))]
    ++ (r.grafted.map fun name => ("spliced".toList, .text name)).toList
    ++ (r.anchor.map fun p => ("anchor".toList,
      .table [("line".toList, .integer p.line), ("column".toList, .integer p.column)])).toList)

/-- The new text of a document, and what was done to it. -/
structure Updated where
  text : Text
  report : Report
  deriving DecidableEq, Repr

/-- The document that a text is. -/
def readDocument (text : Text) : Except Failure Document :=
  match Document.parse text with
  | .ok d => .ok d
  | .error error => .error (.document none text error)

/-- Write fields into the element at an address. -/
def writeFields (root : Element) (target : Address) (fields : Fields) :
    Except TargetFault (Element × Nat) :=
  match root.at? target with
  | none => .error (.nothingAt target)
  | some e =>
    let (e, count) := fields.applyTo e
    match root.changeAt? target fun _ => e with
    | some root => .ok (root, count)
    | none => .error (.nothingAt target)

/-- A failure of finding a target as the failure of an update. -/
def asFailure {α : Type} : Except TargetFault α → Except Failure α
  | .ok a => .ok a
  | .error fault => .error (.target fault)

/-- The document with the change grafted into its text, and the report. -/
def finishUpdate (d : Document) (target : Address) (created : List Text) (settings : Settings)
    (markers : Nat → Text) : Except Failure Updated :=
  match graft d target settings markers with
  | .error fault => .error (.ofGraft fault)
  | .ok g => .ok ⟨g.text, ⟨g.changed, created, g.element, g.anchor⟩⟩

/-- **Write fields into the element at the end of a route.** -/
def update (text : Text) (route : Route) (fields : Fields) (settings : Settings)
    (markers : Nat → Text) : Except Failure Updated := do
  let d ← readDocument text
  let (root, arrival) ← asFailure (Route.findOrCreate d.root .root route)
  let (root, _) ← asFailure (writeFields root arrival.address fields)
  finishUpdate { d with root } arrival.address arrival.created settings markers

end XmlGraft
