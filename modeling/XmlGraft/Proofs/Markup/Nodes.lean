/-
  Nodes — trees node by node.

  The lemmas that later modules share about trees: how a list of nodes is written, which elements
  are among nodes, what a tree says, and when reading can tell its nodes apart.

  1. **Written lists** (`writtenAll_append`, `written_of_ne_nil`, `written_single`, `written_pair`):
     nodes are written one behind the other, and an element in one of two ways.

  2. **Elements of a list of nodes** (`elements`, `findChild?_eq_some_iff`): the first child element
     that satisfies a condition, by what stands before it.  The search numbers the children, so the
     induction counts from any number and passes one node after the other.

  3. **Bare trees** (`Node.bare`): a tree without what it remembers of its source.  Two trees say
     the same when their bare trees are equal; that is the equality in which trees are compared
     throughout.

  4. **Legible trees** (`Node.Every Node.Legible`): each node is written as tokens that say what it
     is, and no text stands next to another, so that reading can tell the nodes apart.  `Node.Every`
     says a property of each node with its own list of children; being legible needs that, since
     whether texts stand side by side is a question to the parent.
-/
import Mathlib.Data.List.Chain
import XmlGraft.Proofs.Markup.Tags

namespace XmlGraft.Markup

/-- Induction on trees: an element has the property when all its children have it. -/
theorem Node.induct {P : Node → Prop}
    (element : ∀ tag children, (∀ n ∈ children, P n) → P (.element tag children))
    (text : ∀ raw, P (.text raw)) (comment : ∀ raw, P (.comment raw))
    (other : ∀ markup, P (.other markup)) (n : Node) : P n := by
  refine @Node.rec P (fun ns => ∀ n ∈ ns, P n) element text comment other ?_ ?_ n
  · intro n hn
    cases hn
  · intro head tail first more n hn
    rcases List.mem_cons.1 hn with rfl | hn
    · exact first
    · exact more n hn

/-! ## Written lists -/

@[simp] theorem writtenAll_nil : writtenAll [] = [] := rfl

@[simp] theorem writtenAll_cons (n : Node) (ns : List Node) :
    writtenAll (n :: ns) = n.written ++ writtenAll ns := rfl

@[simp] theorem writtenAll_append (ns ns' : List Node) :
    writtenAll (ns ++ ns') = writtenAll ns ++ writtenAll ns' := by
  induction ns with
  | nil => rfl
  | cons n ns ih => rw [List.cons_append, writtenAll_cons, writtenAll_cons, ih, List.append_assoc]

/-- An element with children is written as two tags around them. -/
theorem written_of_ne_nil {tag : Tag} {children : List Node} (h : children ≠ []) :
    (Node.element tag children).written = tag.opening ++ writtenAll children ++ tag.closing := by
  rw [Node.written, List.isEmpty_eq_false_iff.2 h, Bool.false_and, if_neg Bool.false_ne_true]

/-- An element without children whose tag is a single one is written as that tag. -/
theorem written_single {tag : Tag} (h : tag.isSingle = true) :
    (Node.element tag []).written = tag.single := by
  rw [Node.written, h]
  rfl

/-- An element whose tag was none is written as two tags, also when there is nothing between them.
    -/
theorem written_pair {tag : Tag} (h : tag.isSingle = false) (children : List Node) :
    (Node.element tag children).written = tag.opening ++ writtenAll children ++ tag.closing := by
  rw [Node.written, h, Bool.and_false, if_neg Bool.false_ne_true]

/-! ## Elements -/

@[simp] theorem element?_toNode (e : Element) : e.toNode.element? = some e := rfl

/-- A node is an element exactly when it is one put back. -/
theorem element?_eq_some_iff {n : Node} {e : Element} : n.element? = some e ↔ n = e.toNode := by
  cases n with
  | element tag children =>
    obtain ⟨tag', children'⟩ := e
    simp [Node.element?, Element.toNode]
  | _ => simp [Node.element?, Element.toNode]

theorem toNode_inj {e e' : Element} (h : e.toNode = e'.toNode) : e = e' :=
  Option.some.inj (congrArg Node.element? h)

/-- **The elements among nodes**, in order. -/
def elements (ns : List Node) : List Element := ns.filterMap Node.element?

@[simp] theorem elements_nil : elements [] = [] := rfl

theorem elements_append (ns ns' : List Node) : elements (ns ++ ns') = elements ns ++ elements ns' :=
  List.filterMap_append

@[simp] theorem elements_toNode (e : Element) (ns : List Node) :
    elements (e.toNode :: ns) = e :: elements ns := rfl

/-- A node that is no element does not count among the elements. -/
theorem elements_cons_of_none {n : Node} (h : n.element? = none) (ns : List Node) :
    elements (n :: ns) = elements ns := List.filterMap_cons_none h

namespace Element

/-- The elements among nodes, each with its index among them, counted from `k`. -/
def numbered (k : Nat) (ns : List Node) : List (Nat × Element) :=
  (ns.zipIdx k).filterMap fun (node, i) => node.element?.map (i, ·)

theorem numbered_of_none {n : Node} (h : n.element? = none) (k : Nat) (ns : List Node) :
    numbered k (n :: ns) = numbered (k + 1) ns := by
  rw [numbered, List.zipIdx_cons, List.filterMap_cons_none]
  · rfl
  · simp only [h, Option.map_none]

theorem numbered_toNode (x : Element) (k : Nat) (ns : List Node) :
    numbered k (x.toNode :: ns) = (k, x) :: numbered (k + 1) ns := rfl

/-- A node that is not searched for is passed over: either it is no element, or one that is
    rejected. -/
theorem find?_numbered_of_rejected {p : Element → Bool} {n : Node}
    (h : ∀ x, n.element? = some x → p x = false) (k : Nat) (ns : List Node) :
    (numbered k (n :: ns)).find? (p ·.2) = (numbered (k + 1) ns).find? (p ·.2) := by
  cases hn : n.element? with
  | none => rw [numbered_of_none hn]
  | some x =>
    obtain rfl := element?_eq_some_iff.1 hn
    rw [numbered_toNode, List.find?_cons_of_neg]
    rw [h x hn]
    exact Bool.false_ne_true

/-- All elements are rejected when the first node is and those behind it are. -/
theorem forall_elements_cons {p : Element → Bool} {n : Node} {ns : List Node} :
    (∀ x ∈ elements (n :: ns), p x = false) ↔
      (∀ x, n.element? = some x → p x = false) ∧ ∀ x ∈ elements ns, p x = false := by
  cases hn : n.element? with
  | none => simp [elements_cons_of_none hn]
  | some x =>
    obtain rfl := element?_eq_some_iff.1 hn
    simp [elements_toNode]

/-- The search for a child element, where the children are counted from `k`.  By induction on the
    children: the first node is rejected and the search goes on, or it is the one that is found. -/
theorem find?_numbered {p : Element → Bool} {ns : List Node} {k i : Nat} {c : Element} :
    (numbered k ns).find? (p ·.2) = some (i, c) ↔
      ∃ front back, ns = front ++ c.toNode :: back ∧ i = k + front.length ∧ p c = true ∧
        ∀ x ∈ elements front, p x = false := by
  induction ns generalizing k with
  | nil => simp [numbered]
  | cons n ns ih =>
    by_cases rejected : ∀ x, n.element? = some x → p x = false
    · rw [find?_numbered_of_rejected rejected, ih]
      constructor
      · rintro ⟨front, back, rfl, rfl, accepted, first⟩
        exact ⟨n :: front, back, rfl, by rw [List.length_cons]; omega, accepted,
          forall_elements_cons.2 ⟨rejected, first⟩⟩
      · -- the first node was rejected, so it stands before the one that is found
        rintro ⟨front, back, e, rfl, accepted, first⟩
        cases front with
        | nil =>
          obtain ⟨rfl, -⟩ := List.cons.inj e
          rw [rejected c (element?_toNode c)] at accepted
          cases accepted
        | cons m front =>
          obtain ⟨rfl, rfl⟩ := List.cons.inj e
          exact ⟨front, back, rfl, by rw [List.length_cons]; omega, accepted,
            (forall_elements_cons.1 first).2⟩
    · -- the first node is an element that is accepted, so that nothing can stand before it
      obtain ⟨x, hx, hp⟩ : ∃ x, n.element? = some x ∧ p x = true := by simpa using rejected
      obtain rfl := element?_eq_some_iff.1 hx
      rw [numbered_toNode, List.find?_cons_of_pos (by exact hp), Option.some.injEq, Prod.mk.injEq]
      constructor
      · rintro ⟨rfl, rfl⟩
        exact ⟨[], ns, rfl, rfl, hp, by simp⟩
      · rintro ⟨front, back, e, rfl, accepted, first⟩
        cases front with
        | nil =>
          obtain ⟨same, -⟩ := List.cons.inj e
          exact ⟨rfl, toNode_inj same⟩
        | cons m front =>
          obtain ⟨rfl, -⟩ := List.cons.inj e
          exact absurd (forall_elements_cons.1 first).1 rejected

/-- Without their numbers these are the elements among the nodes. -/
theorem map_numbered (k : Nat) (ns : List Node) : (numbered k ns).map (·.2) = elements ns := by
  induction ns generalizing k with
  | nil => rfl
  | cons n ns ih =>
    cases hn : n.element? with
    | none => rw [numbered_of_none hn, elements_cons_of_none hn, ih]
    | some x =>
      obtain rfl := element?_eq_some_iff.1 hn
      rw [numbered_toNode, elements_toNode, List.map_cons, ih]

/-- **The first child element that satisfies `p`**: none before it does, and its index counts the
    nodes in front of it, elements or not. -/
theorem findChild?_eq_some_iff {e : Element} {p : Element → Bool} {i : Nat} {c : Element} :
    e.findChild? p = some (i, c) ↔
      ∃ front back, e.children = front ++ c.toNode :: back ∧ i = front.length ∧ p c = true ∧
        ∀ x ∈ elements front, p x = false := by
  have search : e.findChild? p = (numbered 0 e.children).find? (p ·.2) := rfl
  rw [search, find?_numbered]
  simp only [Nat.zero_add]

/-- No child is found exactly when every element among the children is rejected. -/
theorem findChild?_eq_none_iff {e : Element} {p : Element → Bool} :
    e.findChild? p = none ↔ ∀ x ∈ elements e.children, p x = false := by
  have search : e.findChild? p = (numbered 0 e.children).find? (p ·.2) := rfl
  rw [search, List.find?_eq_none, ← map_numbered 0]
  constructor
  · intro h x hx
    obtain ⟨c, hc, rfl⟩ := List.mem_map.1 hx
    exact Bool.eq_false_iff.2 (h c hc)
  · intro h c hc
    rw [h c.2 (List.mem_map_of_mem hc)]
    exact Bool.false_ne_true

end Element

/-! ## Bare trees -/

mutual

/-- **The node without what it remembers of its source.** -/
def Node.bare : Node → Node
  | .element tag children => .element tag.bare (bareAll children)
  | .text raw => .text raw
  | .comment raw => .comment raw
  | .other markup => .other markup

/-- The nodes without what they remember of their source. -/
def bareAll : List Node → List Node
  | [] => []
  | n :: ns => n.bare :: bareAll ns

end

/-- The element without what it remembers of its source. -/
def Element.bare (e : Element) : Element := ⟨e.tag.bare, bareAll e.children⟩

/-- Bare nodes are the nodes, each for itself bare. -/
theorem bareAll_eq_map (ns : List Node) : bareAll ns = ns.map Node.bare := by
  induction ns with
  | nil => rfl
  | cons n ns ih => rw [bareAll, ih, List.map_cons]

@[simp] theorem Element.bare_toNode (e : Element) : e.toNode.bare = e.bare.toNode := rfl

theorem Node.element?_bare (n : Node) : n.bare.element? = n.element?.map Element.bare := by
  cases n <;> rfl

/-- The elements among bare nodes are the elements, bare. -/
theorem elements_bareAll (ns : List Node) : elements (bareAll ns) = (elements ns).map Element.bare := by
  induction ns with
  | nil => rfl
  | cons n ns ih =>
    simp only [elements] at ih ⊢
    rw [bareAll, List.filterMap_cons, List.filterMap_cons, Node.element?_bare, ih]
    -- whether the first node is an element decides both sides alike
    cases n.element? <;> rfl

/-! ## Legible trees -/

/-- **Every node of a tree** has a property of its own tag, or text, and its list of children. -/
inductive Node.Every (p : Node → Prop) : Node → Prop
  | element {tag : Tag} {children : List Node} : p (.element tag children) →
      (∀ n ∈ children, Node.Every p n) → Node.Every p (.element tag children)
  | leaf {n : Node} : n.element? = none → p n → Node.Every p n

/-- Every node of an element has a property when the element itself has it and every node below. -/
theorem every_element {p : Node → Prop} {tag : Tag} {children : List Node} :
    (Node.element tag children).Every p ↔
      p (.element tag children) ∧ ∀ n ∈ children, n.Every p := by
  constructor
  · intro h
    cases h with
    | element own below => exact ⟨own, below⟩
    | leaf none => cases none
  · rintro ⟨own, below⟩
    exact .element own below

/-- The node at the top is one of them. -/
theorem Node.Every.own {p : Node → Prop} {n : Node} (h : n.Every p) : p n := by
  cases h with
  | element own => exact own
  | leaf _ own => exact own

/-- Is the node text? -/
def Node.isText : Node → Bool
  | .text _ => true
  | _ => false

/-- Text does not stand next to text. -/
def Separate (a b : Node) : Prop := a.isText = true → b.isText = false

theorem separate_left {a b : Node} (h : a.isText = false) : Separate a b := fun text => by
  rw [h] at text
  cases text

theorem separate_right {a b : Node} (h : b.isText = false) : Separate a b := fun _ => h

/-- A node may be put in front when it may stand before the first one. -/
theorem isChain_cons_of_head {n : Node} {ns : List Node} (head : ∀ m ∈ ns.head?, Separate n m)
    (chain : ns.IsChain Separate) : (n :: ns).IsChain Separate :=
  List.isChain_cons.2 ⟨head, chain⟩

/-- Other markup: a section or an instruction. -/
def Token.isOther : Token → Bool
  | cdata _ => true
  | instruction _ => true
  | _ => false

/-- **Legible**: what the node itself is written as says what it is. -/
def Node.Legible : Node → Prop
  | .element tag children => tag.Sound ∧ tag.Named ∧ children.IsChain Separate
  | .text raw => Chunk raw ∧ ∃ value, resolve raw = .ok value
  | .comment raw => ∃ body, Lexeme (.comment body) ∧ raw = (Token.comment body).written
  | .other markup => ∃ token, Token.isOther token = true ∧ Lexeme token ∧ markup = token.written

/-- A legible tree. -/
def Element.Legible (e : Element) : Prop := e.toNode.Every Node.Legible

/-- A legible element, by its tag, by its children side by side, and by each of them. -/
theorem Element.legible_iff {e : Element} :
    e.Legible ↔ e.tag.Sound ∧ e.tag.Named ∧ e.children.IsChain Separate ∧
      ∀ n ∈ e.children, n.Every Node.Legible := by
  rw [Element.Legible, Element.toNode, every_element, Node.Legible]
  constructor
  · rintro ⟨⟨sound, named, chain⟩, below⟩
    exact ⟨sound, named, chain, below⟩
  · rintro ⟨sound, named, chain, below⟩
    exact ⟨⟨sound, named, chain⟩, below⟩

end XmlGraft.Markup
