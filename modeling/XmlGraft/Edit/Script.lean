/-
  Script — edits of the elements of a tree, one after the other.

  Each edit names an element by its address in the tree that the edits before it left.  The elements
  on the way to it are reached without being flagged.

  * `Edit.run?`         one edit of one element
  * `Element.editAt?`   one edit somewhere in a tree
  * `Element.edited?`   a script

  The edits are those a program can make of an element in its hand.  An index that is out of range
  is where it would stop, so a script with one gives nothing.  `touch` takes the list of children in
  hand and leaves it: nothing is different afterwards but the flag, and the element is put together
  and no longer copied.
-/
import XmlGraft.Edit.Address

namespace XmlGraft

open Markup

/-- **Edit** of one element. -/
inductive Edit
  /-- Take the list of children in hand and leave it as it is. -/
  | touch
  /-- Add a node behind the children. -/
  | append (node : Node)
  /-- Add a node before child `i`, or behind the last. -/
  | insert (i : Nat) (node : Node)
  /-- Take child `i` away. -/
  | remove (i : Nat)
  | setText (value : Text)
  | setAttribute (name value : Text)
  deriving DecidableEq, Repr

/-- **One edit of an element**; none where there is no such child. -/
def Edit.run? (e : Element) : Edit → Option Element
  | touch => some (e.editChildren id)
  | append node => some (e.append node)
  | insert i node =>
    if i ≤ e.children.length then some (e.editChildren (·.insertIdx i node)) else none
  | remove i => if i < e.children.length then some (e.editChildren (·.eraseIdx i)) else none
  | setText value => some (e.setText value)
  | setAttribute name value => some (e.setAttribute name value)

/-- **Script**: edits, each with the address of the element it is made in. -/
abbrev Script := List (Address × Edit)

namespace Markup.Element

/-- One edit of the element at an address. -/
def editAt? (root : Element) (a : Address) (edit : Edit) : Option Element := do
  let e ← root.at? a
  let changed ← edit.run? e
  root.changeAt? a fun _ => changed

/-- **The tree after a script.** -/
def edited? (root : Element) (script : Script) : Option Element :=
  script.foldlM (fun root (a, edit) => root.editAt? a edit) root

end Markup.Element

end XmlGraft
