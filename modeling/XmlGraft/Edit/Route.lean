/-
  Route — the way to an element by names, built where it does not exist.

  A route is a list of steps down the tree.  A step goes to the first child element of its name that
  also meets its condition, if it has one.  When there is none, a new element is added as the last
  child, filled with the seed of the step.

  * `Route.ofText?`  the route that a text such as `build/plugins` stands for
  * `Route.follow`   the walk below an element
  * `Route.findOrCreate`  the walk from an address in a tree

  The walk goes on in what it created: a step may find a child that the seed of the step before it
  brought along.  So what is told to be created need not be everything below the first created
  element.  A step does not ask whether it would accept what it creates; one that does not will
  create again the next time.

  The condition of a step is any function, hence a step can be shown only by saying whether it has
  one.
-/
import XmlGraft.Edit.Fields
import XmlGraft.Edit.Target
import XmlGraft.Text.Letter

namespace XmlGraft

open Markup

/-- **Step**: one level of a route. -/
structure Step where
  name : Text
  /-- What a child of the name has to satisfy. -/
  condition : Option (Element → Bool)
  /-- The fields that are written into a new element. -/
  seed : Option Fields

namespace Step

/-- The step to the first child of a name. -/
def named (name : Text) : Step := ⟨name, none, none⟩

/-- Does the step go to this element? -/
def accepts (s : Step) (e : Element) : Bool :=
  e.name == s.name &&
    match s.condition with
    | some holds => holds e
    | none => true

/-- The element that the step creates. -/
def create (s : Step) : Element :=
  match s.seed with
  | some seed => (seed.applyTo (Element.named s.name)).1
  | none => Element.named s.name

/-- The step for diagnostics; a condition can only be shown to be there. -/
def described (s : Step) : String :=
  "PathSegment \x7b name: " ++ String.ofList (Text.quoted s.name)
    ++ ", predicate: " ++ toString s.condition.isSome
    ++ ", seed: "
    ++ (match s.seed with
      | some seed => "Some(" ++ seed.described ++ ")"
      | none => "None")
    ++ " \x7d"

end Step

/-! ## Written routes -/

/-- **Element name**: a letter or `_`, then letters, digits and `_ - . :`. -/
def isElementName : Text → Bool
  | [] => false
  | c :: t =>
    (Text.isLetter c || c == '_')
      && t.all fun c => Text.isLetterOrDigit c || c == '_' || c == '-' || c == '.' || c == ':'

/-- **Route**: the steps down to an element. -/
abbrev Route := List Step

namespace Route

/-- The text without the slashes at both ends. -/
def withoutSlashes (t : Text) : Text :=
  ((t.dropWhile (· == '/')).reverse.dropWhile (· == '/')).reverse

/-- The step to the first child of a name, if the text, trimmed, is a name. -/
def stepOfText? (route name : Text) : Except TargetFault Step :=
  let name := Text.trim name
  if isElementName name then .ok (Step.named name) else .error (.badName name route)

/-- **The route that a text stands for**: names with slashes between them.  Slashes at the ends
    and spaces around the names do not count. -/
def ofText? (route : Text) : Except TargetFault Route :=
  let names := withoutSlashes (Text.trim route)
  if names.isEmpty then .error .noSteps
  else (Text.splitOn '/' names).mapM (stepOfText? route)

/-! ## The walk -/

/-- **Where a route led**, and what was created on the way. -/
structure Arrival where
  address : Address
  /-- The depth of the element that got the outermost created element as a child. -/
  createdFrom : Option Nat
  /-- The names of the created elements, outermost first. -/
  created : List Text
  deriving DecidableEq, Repr

namespace Arrival

/-- The address of the outermost created element. -/
def firstCreated (a : Arrival) : Option Address :=
  a.createdFrom.map fun depth => a.address.truncated (depth + 1)

end Arrival

/-- The trail that is left behind a step to child `i`. -/
structure Trail where
  indices : List Nat
  createdFrom : Option Nat
  created : List Text
  deriving DecidableEq, Repr

/-- **Follow a route below an element** that stands at a depth: the element with what had to be
    created, and the trail. -/
def follow (depth : Nat) (e : Element) : Route → Element × Trail
  | [] => (e, ⟨[], none, []⟩)
  | step :: route =>
    -- the first child that is accepted, not the first of the name
    match e.findChild? step.accepts with
    | some (i, child) =>
      let (child, trail) := follow (depth + 1) child route
      (e.putChild i child, { trail with indices := i :: trail.indices })
    | none =>
      let (child, trail) := follow (depth + 1) step.create route
      (e.append child.toNode,
        ⟨e.children.length :: trail.indices, some depth, step.name :: trail.created⟩)

/-- **Follow a route from an address** of a tree; the tree with what had to be created. -/
def findOrCreate (root : Element) (start : Address) (route : Route) :
    Except TargetFault (Element × Arrival) :=
  if route.isEmpty then .error .noSteps
  else
    match root.at? start with
    | none => .error (.nothingAt start)
    | some e =>
      let (e, trail) := follow start.depth e route
      match root.changeAt? start fun _ => e with
      | none => .error (.nothingAt start)
      | some root =>
        .ok (root, ⟨⟨start.indices ++ trail.indices⟩, trail.createdFrom, trail.created⟩)

end Route

end XmlGraft
