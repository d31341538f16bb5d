/-
  Twins — trees that differ in what they remember of their sources, and in no character.

  A tree that was built is not the tree that its text is read as: the built one remembers no source.
  What it says is the same (`Twins.bare`), and so is what it is written as, node by node
  (`Twins.writtenAll_eq`).  The tags of elements with content are the same too, so that the text
  around a node is the same in both trees.

  The relation stands between two equalities that do not serve.  Equal trees are too much, since a
  tag that was read remembers its source; equal texts are too little, since the places of the nodes
  in the text would be lost.  So twins are equal node by node, in the recursion of the trees, and an
  element brings the equality of its own text along.

  `of_append` takes the twins of a list apart where the list was put together, and `exists_element`
  and `of_element` step into one of its elements; with these three a path down one tree is followed
  in the other.
-/
import XmlGraft.Proofs.Markup.Nodes

namespace XmlGraft.Markup

/-- **Twins**: nodes one by one the same, but for what they remember of their sources. -/
inductive Twins : List Node → List Node → Prop
  | nil : Twins [] []
  | leaf {n : Node} {ns' ns : List Node} : n.element? = none → Twins ns' ns →
      Twins (n :: ns') (n :: ns)
  | element {tag' tag : Tag} {children' children ns' ns : List Node} : tag'.bare = tag.bare →
      (Node.element tag' children').written = (Node.element tag children).written →
      (children ≠ [] → tag'.opening = tag.opening ∧ tag'.closing = tag.closing) →
      Twins children' children → Twins ns' ns →
      Twins (.element tag' children' :: ns') (.element tag children :: ns)

namespace Twins

variable {ns' ns ms' ms front back : List Node} {n' n : Node} {e' e : Element}

/-- Twins say the same: what they remember of their sources is no part of it. -/
theorem bare (h : Twins ns' ns) : bareAll ns' = bareAll ns := by
  induction h with
  | nil => rfl
  | leaf _ _ ih => rw [bareAll, bareAll, ih]
  | element tag _ _ _ _ ih_children ih =>
    rw [bareAll, bareAll, ih, Node.bare, Node.bare, tag, ih_children]

/-- Twins are written alike, since each pair of elements brings that along. -/
theorem writtenAll_eq (h : Twins ns' ns) : writtenAll ns' = writtenAll ns := by
  induction h with
  | nil => rfl
  | leaf _ _ ih => rw [writtenAll_cons, writtenAll_cons, ih]
  | element _ written _ _ _ _ ih => rw [writtenAll_cons, writtenAll_cons, written, ih]

theorem append (h : Twins ns' ns) (h' : Twins ms' ms) : Twins (ns' ++ ms') (ns ++ ms) := by
  induction h with
  | nil => exact h'
  | leaf none _ ih => exact .leaf none ih
  | element tag written tags children _ _ ih => exact .element tag written tags children ih

/-- **The twins of a list in two parts** are the twins of the parts: a node has one twin, so the
    cut is behind as many nodes. -/
theorem of_append (h : Twins ns' (front ++ back)) :
    ∃ front' back', ns' = front' ++ back' ∧ Twins front' front ∧ Twins back' back := by
  induction front generalizing ns' with
  | nil => exact ⟨[], ns', rfl, .nil, h⟩
  | cons n front ih =>
    cases h with
    | leaf none rest =>
      obtain ⟨front', back', rfl, here, behind⟩ := ih rest
      exact ⟨_, back', rfl, .leaf none here, behind⟩
    | element tag written tags children rest =>
      obtain ⟨front', back', rfl, here, behind⟩ := ih rest
      exact ⟨_, back', rfl, .element tag written tags children here, behind⟩

/-- Twins are as many, since saying the same they have as many bare nodes. -/
theorem length_eq (h : Twins ns' ns) : ns'.length = ns.length := by
  have same := congrArg List.length h.bare
  rwa [bareAll_eq_map, bareAll_eq_map, List.length_map, List.length_map] at same

/-- The twin of an element is an element, and twins stand behind it. -/
theorem exists_element (h : Twins ns' (e.toNode :: ns)) :
    ∃ e' ms', ns' = Element.toNode e' :: ms' ∧ Twins [e'.toNode] [e.toNode] ∧ Twins ms' ns := by
  obtain ⟨tag, children⟩ := e
  cases h with
  | leaf none _ => cases none
  | @element tag' _ children' _ _ _ same written tags inside rest =>
    exact ⟨⟨tag', children'⟩, _, rfl, .element same written tags inside .nil, rest⟩

/-- The tags of twins, and what stands between them.  An element without children may be written
    as a single tag in one tree, so its tags need not agree. -/
theorem of_element (h : Twins [e'.toNode] [e.toNode]) :
    e'.bare = e.bare ∧ e'.written = e.written ∧ Twins e'.children e.children ∧
      (e.children ≠ [] → e'.tag.opening = e.tag.opening ∧ e'.tag.closing = e.tag.closing) := by
  obtain ⟨tag, children⟩ := e
  obtain ⟨tag', children'⟩ := e'
  cases h with
  | leaf none _ => cases none
  | element same written tags inside _ =>
    -- all but the bare tree is said by the constructor
    refine ⟨?_, written, inside, tags⟩
    rw [Element.bare, Element.bare, same, inside.bare]

end Twins

end XmlGraft.Markup
