/-
  Convention — the indent unit a document uses.

  Every element whose tag is the first thing on its line votes together with each child of which the
  same holds: the vote is what the child's indentation has in addition.  The unit with the most
  votes wins; of several, the narrowest, and of a tab and a space the tab.

  * `ownIndent?`  the indentation of an element whose tag is the first thing on its line
  * `votes`       the votes in a tree
  * `inferUnit`   the unit that a document uses

  Only elements that stand below one another count, not the lines of comments or of text.  An
  element that something else stands before on its line, such as the root behind a declaration, has
  no indentation of its own, and votes neither with its parent nor with its children.  A child that
  is indented less than its parent, or by tabs and spaces in addition, casts no vote.

  The comparison of two units with their votes is a strict order in which no two different units are
  equal, so the winner does not depend on the order in which the votes are counted.
-/
import XmlGraft.Layout.IndentUnit
import XmlGraft.Markup.Document

namespace XmlGraft.Layout

open Markup

/-- The lines of a source, by row. -/
def sourceLines (s : Source) : Array Text :=
  ((List.range s.lineCount).map fun row => (s.line? row).getD []).toArray

/-- The indentation of an element whose tag is the first thing on its line. -/
def ownIndent? (lines : Array Text) (tag : Tag) : Option Text := do
  let p ← tag.origin.bind (·.position)
  let line ← if p.line = 0 then none else lines[p.line - 1]?
  let indent := Text.leadingBlanks line
  if indent.length + 1 = p.column then some indent else none

/-- The vote of a parent and a child. -/
def vote? (parent child : Option Text) : Option IndentUnit := do
  -- the child has to begin with all of the parent's indentation
  let step ← Text.dropStart? (← child) (← parent)
  IndentUnit.ofText? step

mutual

/-- The votes in a node whose parent has the indentation `parent`. -/
def votes (lines : Array Text) (parent : Option Text) : Node → List IndentUnit
  | .element tag children =>
    let own := ownIndent? lines tag
    (vote? parent own).toList ++ allVotes lines own children
  | _ => []

/-- The votes in several nodes. -/
def allVotes (lines : Array Text) (parent : Option Text) : List Node → List IndentUnit
  | [] => []
  | n :: ns => votes lines parent n ++ allVotes lines parent ns

end

/-- Does the first unit, with its number of votes, come before the second? -/
def outvotes (u v : IndentUnit × Nat) : Bool :=
  if u.2 ≠ v.2 then v.2 < u.2
  else if u.1.width ≠ v.1.width then u.1.width < v.1.width
  else u.1.filler == .tab && v.1.filler == .space

/-- The unit that outvotes all others. -/
def winner (votes : List IndentUnit) : Option IndentUnit :=
  let counted := votes.eraseDups.map fun u => (u, votes.count u)
  (counted.foldl (fun best u =>
    match best with
    | none => some u
    | some b => if outvotes u b then some u else some b) none).map (·.1)

/-- **The indent unit that a document uses**, as far as its elements show one. -/
def inferUnit (d : Document) : Option IndentUnit :=
  winner (votes (sourceLines d.source) none d.root.toNode)

end XmlGraft.Layout
