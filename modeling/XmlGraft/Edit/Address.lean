/-
  Address — the place of an element in a tree.

  An address is the list of child indices on the way down from the root; indices count all nodes,
  text and comments too.  The empty address is that of the root.

  * `Element.at?`        the element at an address
  * `Element.changeAt?`  the tree with the element at an address changed; the elements on the way
                         are not flagged

  An address belongs to a tree as it is: taking a child away moves the ones behind it.  A new last
  child moves nothing, which is why a walk can go on with the addresses it has.  Where an address
  leads to no element, nothing is changed and nothing is given back, so a change cannot be made by
  half.
-/
import XmlGraft.Markup.Tree

namespace XmlGraft

open Markup

/-- **Address**: child indices from the root down. -/
structure Address where
  indices : List Nat
  deriving DecidableEq, Repr

namespace Address

/-- The address of the root. -/
def root : Address := ⟨[]⟩

/-- How many steps below the root. -/
def depth (a : Address) : Nat := a.indices.length

/-- Is it the address of the root? -/
def isRoot (a : Address) : Bool := a.indices.isEmpty

/-- The address of a child. -/
def child (a : Address) (i : Nat) : Address := ⟨a.indices ++ [i]⟩

/-- The address one step up. -/
def parent? (a : Address) : Option Address :=
  if a.indices.isEmpty then none else some ⟨a.indices.dropLast⟩

/-- The index of the last step. -/
def lastIndex? (a : Address) : Option Nat := a.indices.getLast?

/-- The first steps of the address. -/
def truncated (a : Address) (depth : Nat) : Address := ⟨a.indices.take depth⟩

/-- The address as text: each index behind a slash. -/
def display (a : Address) : String := "/" ++ "/".intercalate (a.indices.map toString)

end Address

namespace Markup.Element

/-- The child element with an index. -/
def childAt? (e : Element) (i : Nat) : Option Element := e.children[i]?.bind Node.element?

/-- Follow indices down. -/
def below? (e : Element) : List Nat → Option Element
  | [] => some e
  | i :: indices => (e.childAt? i).bind (·.below? indices)

/-- Change the element that indices lead to. -/
def changeBelow? (change : Element → Element) (e : Element) : List Nat → Option Element
  | [] => some (change e)
  | i :: indices => do
    let child ← e.childAt? i
    let child ← child.changeBelow? change indices
    -- the flag of the change is in the child, and shows from here on up
    return e.putChild i child

/-- **The element at an address.** -/
def at? (e : Element) (a : Address) : Option Element := e.below? a.indices

/-- **The tree with the element at an address changed.** -/
def changeAt? (e : Element) (a : Address) (change : Element → Element) : Option Element :=
  e.changeBelow? change a.indices

end Markup.Element

end XmlGraft
