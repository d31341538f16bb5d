/-
  Joined — what reading can give back of a tree.

  Text that stands next to text is one text once it is written, and text without characters is not
  there at all.  So of a tree whose nodes can each be read, reading gives back the tree with its
  texts joined.

  1. **Joining** (`joinText`, `Node.joined`): a node in front of joined nodes, node by node from the
     last to the first.  Nothing that is written changes (`writtenAll_joinText`).

  2. **Writable trees** (`Node.Writable`): every node by itself is written as what it is.  That is
     the part of being legible that an edit keeps; the other part, texts apart, it may well break.

  3. **Tags in two** (`Tag.paired`): an element may hold nothing but empty text.  It is written with
     two tags, although its tag alone would have been written as one.  So the legible tree that
     stands for it has the tag as one that was read as two, with the same two texts.

  4. **Legible trees** (`exists_legible`): a writable tree is written as a legible one that says
     what the joined tree says.  The induction is on the tree; inside, one on the list of children.
     A text has no legible tree of its own, since it may be empty, so `Node.Renders` leaves texts to
     the list that they stand in.
-/
import XmlGraft.Proofs.Edit.Values

namespace XmlGraft.Markup

/-! ## Joining -/

/-- **A node in front of joined nodes**: text goes on in the text behind it, and vanishes when it has no
    characters. -/
def joinText (n : Node) (ns : List Node) : List Node :=
  match n, ns with
  | .text [], ns => ns
  | .text raw, .text raw' :: ns => .text (raw ++ raw') :: ns
  | n, ns => n :: ns

mutual

/-- **The node with its texts joined.** -/
def Node.joined : Node → Node
  | .element tag children => .element tag (allJoined children)
  | .text raw => .text raw
  | .comment raw => .comment raw
  | .other markup => .other markup

/-- The nodes with their texts joined. -/
def allJoined : List Node → List Node
  | [] => []
  | n :: ns => joinText n.joined (allJoined ns)

end

/-- **The element with its texts joined.** -/
def Element.joined (e : Element) : Element := ⟨e.tag, allJoined e.children⟩

@[simp] theorem Element.joined_toNode (e : Element) : e.toNode.joined = e.joined.toNode := rfl

/-- A node that is no text is put in front as it is. -/
theorem joinText_of_not_text {n : Node} (h : n.isText = false) (ns : List Node) :
    joinText n ns = n :: ns := by
  cases n with
  | text raw => cases h
  | _ => rfl

/-- The three ways of joining a text: it is empty and vanishes, it goes on in the text behind it,
    or it stands for itself, with no text behind. -/
theorem joinText_text (raw : Text) (ns : List Node) :
    (raw = [] ∧ joinText (.text raw) ns = ns) ∨
    (raw ≠ [] ∧ ∃ raw' ns', ns = .text raw' :: ns' ∧
      joinText (.text raw) ns = .text (raw ++ raw') :: ns') ∨
    (raw ≠ [] ∧ (∀ m ∈ ns.head?, m.isText = false) ∧ joinText (.text raw) ns = .text raw :: ns) := by
  cases raw with
  | nil => exact .inl ⟨rfl, rfl⟩
  | cons c t =>
    refine .inr ?_
    cases ns with
    | nil => exact .inr ⟨List.cons_ne_nil _ _, by simp, rfl⟩
    | cons m ns =>
      -- what stands behind decides: another text, or a node that is none
      cases m with
      | text raw' => exact .inl ⟨List.cons_ne_nil _ _, raw', ns, rfl, rfl⟩
      | _ =>
        refine .inr ⟨List.cons_ne_nil _ _, fun m mem => ?_, rfl⟩
        cases mem
        rfl

/-- Joining changes nothing in what is written: an empty text is written as nothing, and two texts
    are written one behind the other. -/
theorem writtenAll_joinText (n : Node) (ns : List Node) :
    writtenAll (joinText n ns) = n.written ++ writtenAll ns := by
  cases text : n.isText with
  | false => rw [joinText_of_not_text text, writtenAll_cons]
  | true =>
    cases n with
    | text raw =>
      rcases joinText_text raw ns with ⟨rfl, e⟩ | ⟨-, raw', ns', rfl, e⟩ | ⟨-, -, e⟩
      · rw [e]
        rfl
      · rw [e, writtenAll_cons, writtenAll_cons]
        exact List.append_assoc _ _ _
      · rw [e, writtenAll_cons]
    | _ => cases text

/-- What a tree remembers of its source does not count for joining, for texts remember nothing. -/
theorem bareAll_joinText (n : Node) (ns : List Node) :
    bareAll (joinText n ns) = joinText n.bare (bareAll ns) := by
  cases n with
  | text raw =>
    rw [Node.bare]
    rcases raw with _ | ⟨c, t⟩
    · rfl
    · cases ns with
      | nil => rfl
      | cons m ns => cases m <;> rfl
  | _ => rfl

/-! ## Writable trees -/

/-- **Writable**: the node by itself is written as what it is, whatever stands next to it. -/
def Node.Writable : Node → Prop
  | .element tag _ => tag.Sound ∧ tag.Named
  | .text raw => (∀ c ∈ raw, c ≠ '<') ∧ ∃ value, resolve raw = .ok value
  | .comment raw => ∃ body, Lexeme (.comment body) ∧ raw = (Token.comment body).written
  | .other markup => ∃ token, Token.isOther token = true ∧ Lexeme token ∧ markup = token.written

/-- What each node has, each node has when it follows from it. -/
theorem Node.Every.imp {p q : Node → Prop} (each : ∀ n, p n → q n) {n : Node} (h : n.Every p) :
    n.Every q := by
  induction h with
  | element own _ ih => exact .element (each _ own) ih
  | leaf none own => exact .leaf none (each _ own)

/-- Legible nodes are writable: what they are written as is asked of both. -/
theorem Node.Legible.writable {n : Node} (h : n.Legible) : n.Writable := by
  cases n with
  | element tag children => exact ⟨h.1, h.2.1⟩
  | text raw => exact ⟨h.1.plain, h.2⟩
  | comment raw => exact h
  | other markup => exact h

/-- **Joining legible nodes**: where text is put in front, it is text that can be read, and no
    texts are left side by side. -/
theorem legible_joinText {n : Node} {ns : List Node} (own : n.Every Node.Writable)
    (other : n.isText = false → n.Every Node.Legible)
    (rest : ns.IsChain Separate ∧ ∀ m ∈ ns, m.Every Node.Legible) :
    (joinText n ns).IsChain Separate ∧ ∀ m ∈ joinText n ns, m.Every Node.Legible := by
  cases text : n.isText with
  | false =>
    rw [joinText_of_not_text text]
    exact legible_cons (fun _ _ => separate_left text) (other text) rest
  | true =>
    cases n with
    | text raw =>
      obtain ⟨plain, value, resolved⟩ := own.own
      rcases joinText_text raw ns with ⟨-, e⟩ | ⟨some, raw', ns', rfl, e⟩ | ⟨some, apart, e⟩
      · -- an empty text leaves the nodes as they are
        rw [e]
        exact rest
      · rw [e]
        obtain ⟨chain, below⟩ := rest
        rw [List.forall_mem_cons] at below
        obtain ⟨chunk, value', resolved'⟩ := below.1.own
        -- the joined text resolves piece by piece, and holds no `<` in either of them
        have joined : Chunk (raw ++ raw') := by
          refine ⟨fun nothing => some (List.append_eq_nil_iff.1 nothing).1, ?_⟩
          exact List.forall_mem_append.2 ⟨plain, chunk.plain⟩
        have both : resolve (raw ++ raw') = .ok (value ++ value') :=
          resolve_eq_ok_iff.2 ((resolve_eq_ok_iff.1 resolved).append (resolve_eq_ok_iff.1 resolved'))
        have head : ∀ m ∈ ns'.head?, Separate (.text (raw ++ raw')) m := fun m mem _ =>
          (List.isChain_cons.1 chain).1 m mem rfl
        exact legible_cons head (.leaf rfl ⟨joined, _, both⟩) ⟨chain.tail, below.2⟩
      · rw [e]
        have head : ∀ m ∈ ns.head?, Separate (.text raw) m := fun m mem _ => apart m mem
        exact legible_cons head (.leaf rfl ⟨⟨some, plain⟩, value, resolved⟩) rest
    | _ => cases text

/-! ## Tags in two -/

namespace Tag

/-- The tag as one that was read as two, whatever it was. -/
def paired (t : Tag) : Tag :=
  { t with tagChanged := false, origin := some ⟨none, ⟨⟨0, 0⟩, t.opening⟩, some ⟨⟨0, 0⟩, t.closing⟩⟩ }

theorem isSingle_paired (t : Tag) : t.paired.isSingle = false := rfl

theorem opening_paired (t : Tag) : t.paired.opening = t.opening := rfl

theorem closing_paired (t : Tag) : t.paired.closing = t.closing := rfl

theorem bare_paired (t : Tag) : t.paired.bare = t.bare := rfl

/-- The two tags of a sound tag are sound, as the tokens that they were. -/
theorem Sound.paired {t : Tag} (h : t.Sound) : t.paired.Sound where
  single whole := by cases whole
  opening := by
    obtain ⟨content, lexeme, written, read⟩ := h.opening
    exact ⟨content, lexeme, written, read.name, read.attributes⟩
  closing := by
    obtain ⟨content, lexeme, written, same⟩ := h.closing
    exact ⟨content, lexeme, written, same⟩

theorem Named.paired {t : Tag} (h : t.Named) : t.paired.Named := ⟨h.name, h.keys, h.distinct⟩

end Tag

/-! ## Legible trees -/

/-- **A node that is written as a legible one**, which says what the joined node says. -/
def Node.Renders (n : Node) : Prop :=
  n.isText = true ∨ ∃ n' : Node, n'.Every Node.Legible ∧ n'.written = n.written ∧ n'.bare = n.joined.bare

/-- A list of such nodes is written as a list of legible ones.  By induction from the last to the
    first, as the nodes are joined. -/
theorem exists_legible_list {ns : List Node} (writable : ∀ n ∈ ns, n.Every Node.Writable)
    (each : ∀ n ∈ ns, n.Renders) :
    ∃ ns' : List Node, (ns'.IsChain Separate ∧ ∀ m ∈ ns', m.Every Node.Legible) ∧
      writtenAll ns' = writtenAll ns ∧ bareAll ns' = bareAll (allJoined ns) := by
  induction ns with
  | nil => exact ⟨[], ⟨.nil, List.forall_mem_nil _⟩, rfl, rfl⟩
  | cons n ns ih =>
    rw [List.forall_mem_cons] at writable each
    obtain ⟨ns', legible, written, bare⟩ := ih writable.2 each.2
    -- a text is joined as it stands; another node is put in front as its legible form
    rcases each.1 with text | ⟨n', legible', written', bare'⟩
    · refine ⟨joinText n ns', legible_joinText writable.1 (fun no => ?_) legible, ?_, ?_⟩
      · rw [text] at no
        cases no
      · rw [writtenAll_joinText, written, writtenAll_cons]
      · have same : n.joined = n := by
          cases n with
          | text raw => rfl
          | _ => cases text
        rw [bareAll_joinText, allJoined, bareAll_joinText, bare, same]
    · have writable' : n'.Every Node.Writable := legible'.imp fun _ h => h.writable
      refine ⟨joinText n' ns', legible_joinText writable' (fun _ => legible') legible, ?_, ?_⟩
      · rw [writtenAll_joinText, written, written', writtenAll_cons]
      · rw [bareAll_joinText, allJoined, bareAll_joinText, bare, bare']

/-- **A writable tree is written as a legible one.**  With children the tag is written as two,
    whatever is left of the children when their texts are joined. -/
theorem renders_of_writable {n : Node} (h : n.Every Node.Writable) : n.Renders := by
  induction n using Node.induct with
  | element tag children ih =>
    obtain ⟨⟨sound, named⟩, below⟩ := every_element.1 h
    obtain ⟨children', ⟨chain, legible⟩, written, bare⟩ :=
      exists_legible_list below fun n mem => ih n mem (below n mem)
    refine .inr ?_
    cases children with
    | nil =>
      -- joining makes no children, so the tag may stay the single one that it is
      have none : children' = [] := by
        rw [bareAll_eq_map] at bare
        exact List.map_eq_nil_iff.1 bare
      subst none
      exact ⟨.element tag [], every_element.2 ⟨⟨sound, named, .nil⟩, List.forall_mem_nil _⟩, rfl, rfl⟩
    | cons n ns =>
      refine ⟨.element tag.paired children',
        every_element.2 ⟨⟨sound.paired, named.paired, chain⟩, legible⟩, ?_, ?_⟩
      · -- written as two tags, which are those of the element
        rw [written_pair tag.isSingle_paired, written_of_ne_nil (List.cons_ne_nil n ns), written,
          Tag.opening_paired, Tag.closing_paired]
      · rw [Node.bare, bare, Tag.bare_paired]
        rfl
  | text raw => exact .inl rfl
  | comment raw =>
    obtain ⟨body, lexeme, raw_eq⟩ := h.own
    exact .inr ⟨.comment raw, .leaf rfl ⟨body, lexeme, raw_eq⟩, rfl, rfl⟩
  | other markup =>
    obtain ⟨token, other, lexeme, markup_eq⟩ := h.own
    exact .inr ⟨.other markup, .leaf rfl ⟨token, other, lexeme, markup_eq⟩, rfl, rfl⟩

/-- **A writable element** is written as a legible one that says what the joined element says;
    what says the same as an element is an element. -/
theorem exists_legible {e : Element} (h : e.toNode.Every Node.Writable) :
    ∃ e' : Element, e'.Legible ∧ e'.written = e.written ∧ e'.bare = e.joined.bare := by
  rcases renders_of_writable h with text | ⟨n, legible, written, bare⟩
  · cases text
  · have element := congrArg Node.element? bare
    rw [Element.joined_toNode, Element.bare_toNode, element?_toNode, Node.element?_bare,
      Option.map_eq_some_iff] at element
    obtain ⟨e', found, same⟩ := element
    obtain rfl := element?_eq_some_iff.1 found
    exact ⟨e', legible, written, same⟩

end XmlGraft.Markup
