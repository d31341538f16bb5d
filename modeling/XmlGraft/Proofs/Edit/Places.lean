/-
  Places — an element inside a tree, and the tree around it.

  An address is a list of indices, and following it is a recursion with a step for each index.  Most
  of what is said here is an induction on that list, and its step is always the same: the children
  are cut into those before the index, the one at it and those behind.  The cut is an equation
  between lists (`childAt?_eq_some_iff`), so the step rewrites and never counts.

  1. **Changes** (`changeBelow?`): an element changed in its place is found there
     (`below?_of_changeBelow?`), and changes at one place compose.  Only the result of the change
     matters (`changeBelow?_congr`), not the function.

  2. **Context** (`Around`, `below?_context`): the text of a tree is the text of an element in it
     between two texts that do not depend on the element.  They are the same in a twin of the tree.
     `Around` is a relation and not a function, since the texts exist only where the path leads
     somewhere.

  3. **Legible trees** (`Legible.changeBelow?`): a legible tree stays legible when a legible element
     takes the place of one.  Elements separate texts, so the neighbours do not have to be looked
     at.

  Where a path leads nowhere, all functions give nothing; no lemma asks for more than that a path
  leads somewhere, and most get it from what they suppose about the change.
-/
import XmlGraft.Edit.Address
import XmlGraft.Proofs.Markup.Reading
import XmlGraft.Proofs.Markup.Twins

namespace XmlGraft.Markup.Element

/-- **A child at an index** cuts the children in two, and the index is the length of the first
    part.  Every induction on a path turns the index into this cut, and rewrites with it from
    there on. -/
theorem childAt?_eq_some_iff {e c : Element} {i : Nat} :
    e.childAt? i = some c ↔
      ∃ front back, e.children = front ++ c.toNode :: back ∧ front.length = i := by
  rw [childAt?, Option.bind_eq_some_iff]
  constructor
  · rintro ⟨n, found, element⟩
    obtain rfl := element?_eq_some_iff.1 element
    obtain ⟨lt, here⟩ := List.getElem?_eq_some_iff.1 found
    refine ⟨e.children.take i, e.children.drop (i + 1), ?_, ?_⟩
    · rw [← here, List.getElem_cons_drop, List.take_append_drop]
    · rw [List.length_take, Nat.min_eq_left (Nat.le_of_lt lt)]
  · rintro ⟨front, back, children, rfl⟩
    exact ⟨c.toNode, by simp [children], rfl⟩

theorem putChild_eq {e : Element} {front back : List Node} {n : Node}
    (children : e.children = front ++ n :: back) (c : Element) :
    e.putChild front.length c = ⟨e.tag, front ++ c.toNode :: back⟩ := by
  rw [putChild, children]
  simp

/-- Going down by one step. -/
theorem below?_cons {e a : Element} {i : Nat} {p : List Nat} :
    e.below? (i :: p) = some a ↔
      ∃ (front : List Node) (c : Element) (back : List Node),
        e.children = front ++ c.toNode :: back ∧ front.length = i ∧ c.below? p = some a := by
  rw [below?, Option.bind_eq_some_iff]
  constructor
  · rintro ⟨c, child, found⟩
    obtain ⟨front, back, children, length⟩ := childAt?_eq_some_iff.1 child
    exact ⟨front, c, back, children, length, found⟩
  · rintro ⟨front, c, back, children, length, found⟩
    exact ⟨c, childAt?_eq_some_iff.2 ⟨front, back, children, length⟩, found⟩

/-- Going down to a child that is known. -/
theorem below?_child {e c : Element} {front back : List Node}
    (children : e.children = front ++ c.toNode :: back) (p : List Nat) :
    e.below? (front.length :: p) = c.below? p := by
  rw [below?, childAt?_eq_some_iff.2 ⟨front, back, children, rfl⟩, Option.bind_some]

theorem below?_append (e : Element) (p q : List Nat) :
    e.below? (p ++ q) = (e.below? p).bind (·.below? q) := by
  induction p generalizing e with
  | nil => rfl
  | cons i p ih =>
    rw [List.cons_append, below?, below?, Option.bind_assoc]
    congr 1
    funext c
    exact ih c

/-- A change further down leaves the children around the way as they are. -/
theorem changeBelow?_cons {e c : Element} {front back : List Node}
    (children : e.children = front ++ c.toNode :: back) (f : Element → Element) (p : List Nat) :
    e.changeBelow? f (front.length :: p)
      = (c.changeBelow? f p).map fun c' => ⟨e.tag, front ++ c'.toNode :: back⟩ := by
  have child := childAt?_eq_some_iff.2 ⟨front, back, children, rfl⟩
  rw [changeBelow?, child]
  -- the change may fail below, and then it fails here
  cases found : c.changeBelow? f p with
  | none => simp [found]
  | some c' =>
    simp only [Option.bind_eq_bind, Option.bind_some, found, Option.map_some]
    exact congrArg some (putChild_eq children c')

/-- Where there is an element, it can be changed. -/
theorem exists_changeBelow? {e a : Element} {p : List Nat} (h : e.below? p = some a)
    (f : Element → Element) : ∃ e', e.changeBelow? f p = some e' := by
  induction p generalizing e with
  | nil => exact ⟨f e, rfl⟩
  | cons i p ih =>
    obtain ⟨front, c, back, children, rfl, found⟩ := below?_cons.1 h
    obtain ⟨c', changed⟩ := ih found
    exact ⟨_, by rw [changeBelow?_cons children, changed, Option.map_some]⟩

/-- What is changed below a child is changed below the parent. -/
theorem changeBelow?_eq_some {e e' : Element} {f : Element → Element} {i : Nat} {p : List Nat} :
    e.changeBelow? f (i :: p) = some e' ↔
      ∃ (front : List Node) (c : Element) (back : List Node) (c' : Element),
        e.children = front ++ c.toNode :: back ∧ front.length = i ∧ c.changeBelow? f p = some c' ∧
        e' = ⟨e.tag, front ++ c'.toNode :: back⟩ := by
  constructor
  · intro h
    rw [changeBelow?] at h
    simp only [Option.bind_eq_bind, Option.bind_eq_some_iff] at h
    obtain ⟨c, child, c', changed, same⟩ := h
    obtain ⟨front, back, children, rfl⟩ := childAt?_eq_some_iff.1 child
    refine ⟨front, c, back, c', children, rfl, changed, ?_⟩
    rw [← putChild_eq children]
    exact (Option.some.inj same).symm
  · rintro ⟨front, c, back, c', children, rfl, changed, rfl⟩
    rw [changeBelow?_cons children, changed, Option.map_some]

/-- What is changed was there. -/
theorem exists_below?_of_changeBelow? {e e' : Element} {f : Element → Element} {p : List Nat}
    (h : e.changeBelow? f p = some e') : ∃ a, e.below? p = some a := by
  induction p generalizing e e' with
  | nil => exact ⟨e, rfl⟩
  | cons i p ih =>
    obtain ⟨front, c, back, c', children, rfl, changed, -⟩ := changeBelow?_eq_some.1 h
    obtain ⟨a, found⟩ := ih changed
    exact ⟨a, below?_cons.2 ⟨front, c, back, children, rfl, found⟩⟩

/-- **The changed element stands in the place of the old one**: following the path in the new tree
    leads to the result of the change.  In particular a path leads as far as it did. -/
theorem below?_of_changeBelow? {e e' a : Element} {f : Element → Element} {p : List Nat}
    (h : e.below? p = some a) (changed : e.changeBelow? f p = some e') :
    e'.below? p = some (f a) := by
  induction p generalizing e e' with
  | nil =>
    cases h
    cases changed
    rfl
  | cons i p ih =>
    obtain ⟨front, c, back, children, rfl, found⟩ := below?_cons.1 h
    rw [changeBelow?_cons children, Option.map_eq_some_iff] at changed
    obtain ⟨c', changed', rfl⟩ := changed
    exact below?_cons.2 ⟨front, c', back, rfl, rfl, ih found changed'⟩

/-- Two changes at one place are one change. -/
theorem changeBelow?_changeBelow? {e e' : Element} {f : Element → Element} {p : List Nat}
    (changed : e.changeBelow? f p = some e') (g : Element → Element) :
    e'.changeBelow? g p = e.changeBelow? (fun a => g (f a)) p := by
  induction p generalizing e e' with
  | nil =>
    cases changed
    rfl
  | cons i p ih =>
    obtain ⟨front, c, back, c', children, rfl, changed', rfl⟩ := changeBelow?_eq_some.1 changed
    rw [changeBelow?_cons children,
      changeBelow?_cons (e := ⟨e.tag, front ++ c'.toNode :: back⟩) rfl, ih changed']

/-- Only what a change does to the element that is changed counts, so it may be replaced by the
    constant function of its result, with which one can rewrite. -/
theorem changeBelow?_congr {e a : Element} {f g : Element → Element} {p : List Nat}
    (h : e.below? p = some a) (same : f a = g a) : e.changeBelow? f p = e.changeBelow? g p := by
  induction p generalizing e with
  | nil =>
    cases h
    exact congrArg some same
  | cons i p ih =>
    obtain ⟨front, c, back, children, rfl, found⟩ := below?_cons.1 h
    rw [changeBelow?_cons children, changeBelow?_cons children, ih found]

/-- A change further down is a change of what is above it. -/
theorem changeBelow?_append {e a a' : Element} {f : Element → Element} {p q : List Nat}
    (h : e.below? p = some a) (changed : a.changeBelow? f q = some a') :
    e.changeBelow? f (p ++ q) = e.changeBelow? (fun _ => a') p := by
  induction p generalizing e with
  | nil =>
    cases h
    exact changed
  | cons i p ih =>
    obtain ⟨front, c, back, children, rfl, found⟩ := below?_cons.1 h
    rw [List.cons_append, changeBelow?_cons children, changeBelow?_cons children, ih found]

/-- **Changing nothing in an element** changes nothing in the tree: the children are put together
    from the parts that they were cut into. -/
theorem changeBelow?_of_fixed {e a : Element} {f : Element → Element} {p : List Nat}
    (h : e.below? p = some a) (fixed : f a = a) : e.changeBelow? f p = some e := by
  induction p generalizing e with
  | nil =>
    cases h
    exact congrArg some fixed
  | cons i p ih =>
    obtain ⟨front, c, back, children, rfl, found⟩ := below?_cons.1 h
    rw [changeBelow?_cons children, ih found, Option.map_some, ← children]

/-! ## Context -/

/-- **The text around the element at a path**: what stands before it in a tree, and behind it. -/
inductive Around : Text → Text → Element → List Nat → Prop
  | here {e : Element} : Around [] [] e []
  | down {left right : Text} {e c : Element} {front back : List Node} {p : List Nat} :
      e.children = front ++ c.toNode :: back → Around left right c p →
      Around (e.tag.opening ++ writtenAll front ++ left) (right ++ (writtenAll back ++ e.tag.closing))
        e (front.length :: p)

section

variable {left right : Text} {e e' a : Element} {p : List Nat}

theorem exists_around (h : e.below? p = some a) : ∃ left right, Around left right e p := by
  induction p generalizing e with
  | nil => exact ⟨[], [], .here⟩
  | cons i p ih =>
    obtain ⟨front, c, back, children, rfl, found⟩ := below?_cons.1 h
    obtain ⟨left, right, around⟩ := ih found
    exact ⟨_, _, .down children around⟩

/-- **The text of a tree** is the text around the element with the text of the element in between.
    An element on the way has a child, so it is written with two tags, be it read as one or not. -/
theorem Around.written (h : Around left right e p) (found : e.below? p = some a) :
    e.written = left ++ a.written ++ right := by
  induction h with
  | here =>
    cases found
    simp
  | @down left right e c front back p children _ ih =>
    rw [below?_child children] at found
    -- an element with a child is written with two tags, the child between them
    have some_child : e.children ≠ [] := by rw [children]; simp
    have own : c.toNode.written = c.written := rfl
    rw [Element.written, Element.toNode, written_of_ne_nil some_child, children, writtenAll_append,
      writtenAll_cons, own, ih found]
    simp only [List.append_assoc]

/-- In a tree that was read, the element stands as many bytes behind the tree as the text before
    it has.  This is how a place in the tree becomes a place in the source. -/
theorem Around.readAt (h : Around left right e p) (found : e.below? p = some a) {o : Nat}
    (read : ReadAt o [e.toNode]) : ReadAt (o + left.size) [a.toNode] := by
  induction h generalizing o with
  | here =>
    cases found
    exact read
  | @down left right e c front back p children _ ih =>
    rw [below?_child children] at found
    obtain ⟨-, -, -, single | ⟨-, inner⟩⟩ := read.element
    · -- a tag that stands for both has no children
      rw [children] at single
      exact absurd single.1 (by simp)
    · rw [children, readAt_append] at inner
      have behind : ReadAt (o + e.tag.opening.size + (writtenAll front).size) ([c.toNode] ++ back) :=
        inner.2
      have own := (readAt_append.1 behind).1
      rw [Text.size_append, Text.size_append, ← Nat.add_assoc, ← Nat.add_assoc]
      exact ih found own

/-- A change of the element changes nothing around it. -/
theorem Around.changed (h : Around left right e p) {f : Element → Element}
    (changed : e.changeBelow? f p = some e') : Around left right e' p := by
  induction h generalizing e' with
  | here => exact .here
  | @down left right e c front back p children _ ih =>
    rw [changeBelow?_cons children, Option.map_eq_some_iff] at changed
    obtain ⟨c', changed, rfl⟩ := changed
    -- the recursion is along the path, and the text is made of tags and of siblings, which all stay
    exact .down (e := ⟨e.tag, front ++ c'.toNode :: back⟩) rfl (ih changed)

/-- **The same text stands around an element in twins.**  Twins are written alike node by node,
    and their tags are the same, so all that the text around the element is made of agrees. -/
theorem Around.twins (h : Around left right e p) (twins : Twins [e'.toNode] [e.toNode]) :
    Around left right e' p := by
  induction h generalizing e' with
  | here => exact .here
  | @down left right e c front back p children _ ih =>
    obtain ⟨-, -, inside, tags⟩ := twins.of_element
    obtain ⟨opening, closing⟩ := tags (by rw [children]; simp)
    rw [children] at inside
    obtain ⟨front', rest, children', before, behind⟩ := inside.of_append
    obtain ⟨c', back', rfl, own, behind⟩ := behind.exists_element
    have inner := Around.down children' (ih own)
    rw [before.length_eq, before.writtenAll_eq, behind.writtenAll_eq, opening, closing] at inner
    exact inner

/-- The element at a path has a twin at that path. -/
theorem exists_below?_of_twins (twins : Twins [e'.toNode] [e.toNode]) (h : e.below? p = some a) :
    ∃ a', e'.below? p = some a' ∧ Twins [a'.toNode] [a.toNode] := by
  induction p generalizing e e' with
  | nil =>
    cases h
    exact ⟨e', rfl, twins⟩
  | cons i p ih =>
    obtain ⟨front, c, back, children, rfl, found⟩ := below?_cons.1 h
    obtain ⟨-, -, inside, -⟩ := twins.of_element
    rw [children] at inside
    obtain ⟨front', rest, children', before, behind⟩ := inside.of_append
    obtain ⟨c', back', rfl, own, -⟩ := behind.exists_element
    obtain ⟨a', there, same⟩ := ih own found
    exact ⟨a', below?_cons.2 ⟨front', c', back', children', before.length_eq, there⟩, same⟩

/-- **The text around an element** does not depend on the element, and in a tree that was read the
    element stands behind the first part of it. -/
theorem below?_context (h : e.below? p = some a) :
    ∃ left right, e.written = left ++ a.written ++ right ∧
      (∀ o, ReadAt o [e.toNode] → ReadAt (o + left.size) [a.toNode]) ∧
      ∀ f e', e.changeBelow? f p = some e' → e'.written = left ++ (f a).written ++ right := by
  obtain ⟨left, right, around⟩ := exists_around h
  refine ⟨left, right, around.written h, fun o read => around.readAt h read, fun f e' changed => ?_⟩
  exact (around.changed changed).written (below?_of_changeBelow? h changed)

end

/-! ## Legible trees -/

/-- Other nodes can take the place of an element among separate nodes. -/
theorem isChain_replace {front back : List Node} {c c' : Element}
    (h : (front ++ c.toNode :: back).IsChain Separate) :
    (front ++ c'.toNode :: back).IsChain Separate := by
  rw [List.isChain_append] at h ⊢
  obtain ⟨chain_front, chain_back, -⟩ := h
  refine ⟨chain_front, ?_, ?_⟩
  · -- what stands behind an element may be anything, since an element separates
    exact isChain_cons_of_head (fun _ _ => separate_left rfl) chain_back.tail
  · intro a _ b hb
    cases hb
    exact separate_right rfl

/-- What holds of all nodes of a tree holds of those of an element in it. -/
theorem every_below? {p : Node → Prop} {e a : Element} {q : List Nat} (all : e.toNode.Every p)
    (h : e.below? q = some a) : a.toNode.Every p := by
  induction q generalizing e with
  | nil =>
    cases h
    exact all
  | cons i q ih =>
    obtain ⟨front, c, back, children, rfl, found⟩ := below?_cons.1 h
    refine ih ?_ found
    exact (every_element.1 all).2 c.toNode (by rw [children]; simp)

/-- **A legible tree stays legible** when an element in it is replaced by a legible one.  An
    element separates the texts around it just as the old one did. -/
theorem Legible.changeBelow? {e e' a : Element} {f : Element → Element} {p : List Nat}
    (legible : e.Legible) (h : e.below? p = some a) (new : (f a).Legible)
    (changed : e.changeBelow? f p = some e') : e'.Legible := by
  induction p generalizing e e' with
  | nil =>
    cases h
    cases changed
    exact new
  | cons i p ih =>
    obtain ⟨front, c, back, children, rfl, found⟩ := below?_cons.1 h
    rw [changeBelow?_cons children, Option.map_eq_some_iff] at changed
    obtain ⟨c', changed', rfl⟩ := changed
    obtain ⟨sound, named, chain, below⟩ := legible_iff.1 legible
    rw [children] at chain below
    have inner : c'.Legible := ih (below c.toNode (by simp)) found changed'
    refine legible_iff.2 ⟨sound, named, isChain_replace chain, fun n hn => ?_⟩
    rcases List.mem_append.1 hn with hn | hn
    · exact below n (List.mem_append_left _ hn)
    · rcases List.mem_cons.1 hn with rfl | hn
      · exact inner
      · exact below n (List.mem_append_right _ (List.mem_cons_of_mem _ hn))

end XmlGraft.Markup.Element
