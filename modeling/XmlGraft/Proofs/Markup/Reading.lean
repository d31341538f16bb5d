/-
  Reading — trees that were read.

  An element that was read remembers the bytes that its tags were cut from.  What the document
  copies, and all that is said about ranges and locations, rests on these bytes being the right
  ones.

  1. **A tree that was read** (`ReadAt`): its elements are unchanged and know where they stand, and
     the ranges of their tags tile the source from a byte on (`readAt_of_content`).  The relation
     goes by the nodes in order and carries the byte along, so that a list of nodes can be cut
     anywhere (`readAt_append`).

  2. **Its elements** (`ReadAt.element`, `ReadAt.tags`): one tag that is all of the element, or two
     with its children between them.

  3. **Names** (`legible_of_content`): when all names in it are names, it is legible.  That names
     are names is asked apart: reading takes almost any characters for a name, and the text is
     copied back whatever they are; only what is read again has to have names that can be.
-/
import XmlGraft.Proofs.Markup.Content

namespace XmlGraft.Markup

/-! ## Trees that were read -/

/-- **Nodes as they were read**, where their first character is byte `o`. -/
inductive ReadAt : Nat → List Node → Prop
  | nil {o : Nat} : ReadAt o []
  | leaf {o : Nat} {n : Node} {ns : List Node} : n.element? = none →
      ReadAt (o + n.written.size) ns → ReadAt o (n :: ns)
  | single {o : Nat} {name : Text} {attributes : List Attribute} {position : Position}
      {opening : Excerpt} {ns : List Node} :
      opening.range = ⟨o, o + opening.text.size⟩ → ReadAt (o + opening.text.size) ns →
      ReadAt o (.element ⟨name, attributes, some ⟨some position, opening, none⟩, false, false⟩ [] :: ns)
  | pair {o : Nat} {name : Text} {attributes : List Attribute} {position : Position}
      {opening closing : Excerpt} {children ns : List Node} :
      opening.range = ⟨o, o + opening.text.size⟩ →
      ReadAt (o + opening.text.size) children →
      closing.range = ⟨o + (opening.text ++ writtenAll children).size,
        o + (opening.text ++ writtenAll children ++ closing.text).size⟩ →
      ReadAt (o + (opening.text ++ writtenAll children ++ closing.text).size) ns →
      ReadAt o (.element ⟨name, attributes, some ⟨some position, opening, some closing⟩, false, false⟩
        children :: ns)

/-- A tag that was read: its attributes, its name, and the event as its origin. -/
theorem of_tagOf {e : Event} {content : Text} {tag : Tag} (h : Builder.tagOf e content = .ok tag) :
    attributes content = .ok tag.attributes ∧
      tag = ⟨tagName content, tag.attributes, some ⟨e.position, e.excerpt, none⟩, false, false⟩ := by
  unfold Builder.tagOf at h
  split at h
  · cases h
  · next as read =>
    cases h
    exact ⟨read, rfl⟩

/-- A tag is read when its attributes are. -/
theorem tagOf_eq_ok {e : Event} {content : Text} {as : List Attribute}
    (read : attributes content = .ok as) :
    Builder.tagOf e content
      = .ok ⟨tagName content, as, some ⟨e.position, e.excerpt, none⟩, false, false⟩ := by
  unfold Builder.tagOf
  rw [read]

/-- A node that is no element stands where its event stands. -/
theorem readAt_of_leaf {o : Nat} {e : Event} {es : List Event} {n : Node} {ns : List Node}
    (leaf : n.element? = none) (written : n.written = e.token.written)
    (rest : ReadAt (o + e.token.written.size) ns ∧ writtenAll ns = eventsWritten es) :
    ReadAt o (n :: ns) ∧ writtenAll (n :: ns) = eventsWritten (e :: es) := by
  obtain ⟨read, same⟩ := rest
  constructor
  · refine .leaf leaf ?_
    rwa [written]
  · rw [writtenAll_cons, eventsWritten_cons, same, written]

/-- **The nodes that events make up stand where the events stand**, and are written as they are.
    By induction on the grammar, for any byte at which the events begin. -/
theorem readAt_of_content {es : List Event} {ns : List Node} (h : Content es ns) :
    ∀ {o : Nat}, Tiles o es → ReadAt o ns ∧ writtenAll ns = eventsWritten es := by
  induction h with
  | nil => exact fun _ => ⟨.nil, rfl⟩
  | text token _ _ ih =>
    rintro o ⟨excerpt, -, tiles⟩
    exact readAt_of_leaf rfl (congrArg Excerpt.text excerpt) (ih tiles)
  | comment token _ ih =>
    rintro o ⟨excerpt, -, tiles⟩
    exact readAt_of_leaf rfl (congrArg Excerpt.text excerpt) (ih tiles)
  | other token _ ih =>
    rintro o ⟨excerpt, -, tiles⟩
    exact readAt_of_leaf rfl (congrArg Excerpt.text excerpt) (ih tiles)
  | @single e es ns content tag token tagged _ ih =>
    rintro o ⟨excerpt, located, tiles⟩
    obtain ⟨read, same⟩ := ih tiles
    obtain ⟨p, position⟩ := Option.isSome_iff_exists.1 located
    rw [(of_tagOf tagged).2, excerpt, position]
    exact ⟨.single rfl read, by rw [writtenAll_cons, eventsWritten_cons, same]; rfl⟩
  | @pair e last inner es children ns content end_ tag token tagged _ closes _ _ ihi ih =>
    rintro o ⟨excerpt, located, tiles⟩
    obtain ⟨tiles_inner, excerpt', -, tiles⟩ := tiles_append.1 tiles
    obtain ⟨read_inner, same_inner⟩ := ihi tiles_inner
    obtain ⟨read, same⟩ := ih tiles
    obtain ⟨p, position⟩ := Option.isSome_iff_exists.1 located
    -- what stands before the end tag is written as the events before it
    rw [(of_tagOf tagged).2, Tag.closedBy, excerpt, excerpt', position, ← same_inner]
    refine ⟨.pair rfl read_inner ?_ ?_, ?_⟩
    · simp only [Text.size_append, Nat.add_assoc]
    · rw [← same_inner] at read
      simpa only [Text.size_append, Nat.add_assoc] using read
    · rw [writtenAll_cons, eventsWritten_cons, eventsWritten_append, eventsWritten_cons, same,
        ← same_inner, written_pair rfl]
      simp only [List.append_assoc]
      rfl

/-- Nodes in two parts: the second part stands behind what is written of the first. -/
theorem readAt_append {o : Nat} {ns ns' : List Node} :
    ReadAt o (ns ++ ns') ↔ ReadAt o ns ∧ ReadAt (o + (writtenAll ns).size) ns' := by
  induction ns generalizing o with
  | nil =>
    constructor
    · exact fun h => ⟨.nil, h⟩
    · exact fun h => h.2
  | cons n ns ih =>
    rw [List.cons_append, writtenAll_cons, Text.size_append, ← Nat.add_assoc]
    constructor
    · intro h
      cases h with
      | leaf none rest =>
        obtain ⟨h1, h2⟩ := ih.1 rest
        exact ⟨.leaf none h1, h2⟩
      | single range rest =>
        obtain ⟨h1, h2⟩ := ih.1 rest
        exact ⟨.single range h1, h2⟩
      | pair range inner range' rest =>
        obtain ⟨h1, h2⟩ := ih.1 rest
        refine ⟨.pair range inner range' h1, ?_⟩
        rw [written_pair rfl]
        exact h2
    · rintro ⟨h, h'⟩
      cases h with
      | leaf none rest => exact .leaf none (ih.2 ⟨rest, h'⟩)
      | single range rest => exact .single range (ih.2 ⟨rest, h'⟩)
      | pair range inner range' rest =>
        refine .pair range inner range' (ih.2 ⟨rest, ?_⟩)
        rw [written_pair rfl] at h'
        exact h'

/-- Nothing in a tree that was read has changed, for its flags are down. -/
theorem ReadAt.allPristine {o : Nat} {ns : List Node} (h : ReadAt o ns) : allPristine ns = true := by
  induction h with
  | nil => rfl
  | @leaf o n ns none _ ih =>
    rw [Markup.allPristine, ih, Bool.and_true]
    cases n with
    | element tag children => cases none
    | _ => rfl
  | single _ _ ih =>
    rw [Markup.allPristine, ih]
    rfl
  | pair _ _ _ _ ihi ih =>
    rw [Markup.allPristine, ih, Node.isPristine, ihi]
    rfl

theorem allPristine_mem {ns : List Node} (h : Markup.allPristine ns = true) :
    ∀ n ∈ ns, n.isPristine = true := by
  induction ns with
  | nil => simp
  | cons n ns ih =>
    rw [Markup.allPristine, Bool.and_eq_true] at h
    exact List.forall_mem_cons.2 ⟨h.1, ih h.2⟩

/-- A child of an element that was read has not changed. -/
theorem ReadAt.isPristine_child {o : Nat} {e c : Element} {front back : List Node}
    (h : ReadAt o [e.toNode]) (children : e.children = front ++ c.toNode :: back) :
    c.isPristine = true := by
  have all := h.allPristine
  rw [Markup.allPristine, Element.toNode, children, Node.isPristine, Bool.and_eq_true,
    Bool.and_eq_true] at all
  exact allPristine_mem all.1.2 c.toNode (by simp)

/-- The bytes that an element was read from. -/
def Element.range (e : Element) : ByteRange := (e.tag.origin.map (·.range)).getD ⟨0, 0⟩

/-- The ways in which an element can have been read: its range is what it is written as, and its
    children stand behind its start tag, unless it was a single tag. -/
theorem ReadAt.element {o : Nat} {e : Element} {ns : List Node} (h : ReadAt o (e.toNode :: ns)) :
    e.isLocated = true ∧ e.range = ⟨o, o + e.written.size⟩ ∧
      ReadAt (o + e.written.size) ns ∧
      ((e.children = [] ∧ e.tag.isSingle = true) ∨
        (e.tag.isSingle = false ∧ ReadAt (o + e.tag.opening.size) e.children)) := by
  obtain ⟨tag, children⟩ := e
  rw [Element.toNode] at h
  cases h with
  | leaf none rest => cases none
  | single range rest =>
    refine ⟨rfl, ?_, rest, .inl ⟨rfl, rfl⟩⟩
    simp only [Element.range, Option.map_some, Origin.range, Option.getD_none, Option.getD_some, range]
    rfl
  | pair range inner range' rest =>
    refine ⟨rfl, ?_, ?_, .inr ⟨rfl, inner⟩⟩
    · -- from the first byte of the start tag to the last one of the end tag
      simp only [Element.range, Option.map_some, Origin.range, Option.getD_some, range, range',
        Element.written, Element.toNode]
      rw [written_pair rfl]
      rfl
    · rw [Element.written, Element.toNode, written_pair rfl]
      exact rest

/-- **The tags of an element that was read**: one tag that is all of it, or two with its children
    between them, each at its place. -/
theorem ReadAt.tags {o : Nat} {e : Element} {ns : List Node} (h : ReadAt o (e.toNode :: ns)) :
    (∃ position opening, e.tag.origin = some ⟨some position, opening, none⟩ ∧ e.children = [] ∧
      e.written = opening.text ∧ e.tag.opening = Tag.withoutSlash opening.text ++ ['>'] ∧
      e.tag.closing = ['<', '/'] ++ e.name ++ ['>']) ∨
    (∃ position opening closing, e.tag.origin = some ⟨some position, opening, some closing⟩ ∧
      e.written = e.tag.opening ++ writtenAll e.children ++ e.tag.closing ∧
      closing.range.start = o + (e.tag.opening ++ writtenAll e.children).size) := by
  obtain ⟨tag, children⟩ := e
  rw [Element.toNode] at h
  cases h with
  | leaf none rest => cases none
  | @single o name attributes position opening ns range rest =>
    exact .inl ⟨position, opening, rfl, rfl, rfl, rfl, rfl⟩
  | @pair o name attributes position opening closing children ns range inner range' rest =>
    refine .inr ⟨position, opening, closing, rfl, ?_, ?_⟩
    · rw [Element.written, Element.toNode, written_pair rfl]
    · rw [range']
      rfl

/-! ## Names -/

mutual

/-- **Are all names in a node names?** -/
def Node.hasNames : Node → Bool
  | .element tag children =>
    isElementName tag.name && tag.attributes.all (isElementName ·.name) && allHaveNames children
  | _ => true

/-- Are all names in the nodes names? -/
def allHaveNames : List Node → Bool
  | [] => true
  | n :: ns => n.hasNames && allHaveNames ns

end

/-- **Are all names of elements and attributes names?** -/
def Element.hasNames (e : Element) : Bool := e.toNode.hasNames

/-- Only character data makes up text. -/
theorem Content.isText_head {es : List Event} {ns : List Node} (h : Content es ns) {n : Node}
    (head : ns.head? = some n) (text : n.isText = true) :
    ∃ e, es.head? = some e ∧ e.token.isCharacters = true := by
  cases h with
  | nil => cases head
  | text token => exact ⟨_, rfl, by rw [token]; rfl⟩
  | comment => cases head; cases text
  | other => cases head; cases text
  | single => cases head; cases text
  | pair => cases head; cases text

/-- What can come behind character data makes up no text, since character data is read up to
    markup. -/
theorem Content.separate {e : Event} {es : List Event} {ns : List Node} (h : Content es ns)
    (chars : e.token.isCharacters = true)
    (apart : ((e :: es).map (·.token)).IsChain Apart) (n : Node) :
    ∀ m ∈ ns.head?, Separate n m := by
  intro m hm _
  cases text : m.isText with
  | false => rfl
  | true =>
    obtain ⟨e', he', chars'⟩ := h.isText_head hm text
    cases es with
    | nil => cases he'
    | cons e₁ es =>
      cases he'
      have := (List.isChain_cons_cons.1 apart).1 chars
      rw [chars'] at this
      cases this

/-- A node in front of legible nodes. -/
theorem legible_cons {n : Node} {ns : List Node} (apart : ∀ m ∈ ns.head?, Separate n m)
    (own : n.Every Node.Legible) (rest : ns.IsChain Separate ∧ ∀ m ∈ ns, m.Every Node.Legible) :
    (n :: ns).IsChain Separate ∧ ∀ m ∈ n :: ns, m.Every Node.Legible :=
  ⟨isChain_cons_of_head apart rest.1, List.forall_mem_cons.2 ⟨own, rest.2⟩⟩

/-- A tag that was read is named when its names are names: reading lets no key stand twice. -/
theorem named_of_tagOf {e : Event} {content : Text} {tag : Tag}
    (tagged : Builder.tagOf e content = .ok tag) (name : isElementName tag.name = true)
    (keys : tag.attributes.all (isElementName ·.name) = true) : tag.Named where
  name := plainName_of_isElementName name
  keys a ha := plainName_of_isElementName (List.all_eq_true.1 keys a ha)
  distinct := (nodup_of_attributesFrom (of_tagOf tagged).1).1

/-- Sections and instructions are lexemes. -/
theorem lexeme_of_isOther {token : Token} (other : token.isOther = true)
    (formed : token.WellFormed) : Lexeme token := by
  refine (Token.wellFormed_iff ?_).1 formed
  cases token with
  | characters raw => cases other
  | _ => rfl

/-- **A tree that was read is legible** when its names are names.  By induction on the grammar;
    each event is a lexeme, and its excerpt is the token as it was written. -/
theorem legible_of_content {es : List Event} {ns : List Node} (h : Content es ns) :
    ∀ {o : Nat}, Tiles o es → Lexed (es.map (·.token)) → allHaveNames ns = true →
      ns.IsChain Separate ∧ ∀ n ∈ ns, n.Every Node.Legible := by
  induction h with
  | nil => exact fun _ _ _ => ⟨.nil, by simp⟩
  | @text e es ns raw value token resolved content ih =>
    rintro o ⟨excerpt, -, tiles⟩ lexed names
    have rest := ih tiles lexed.tail (by simpa [allHaveNames, Node.hasNames] using names)
    have chunk : Token.WellFormed e.token := lexed.wellFormed _ (by simp)
    -- texts are apart because character data was
    have apart := content.separate (by rw [token]; rfl) lexed.apart (.text e.excerpt.text)
    refine legible_cons apart (.leaf rfl ?_) rest
    rw [token] at chunk
    rw [excerpt, token]
    exact ⟨chunk, value, resolved⟩
  | @comment e es ns body token content ih =>
    rintro o ⟨excerpt, -, tiles⟩ lexed names
    have rest := ih tiles lexed.tail (by simpa [allHaveNames, Node.hasNames] using names)
    have formed : Token.WellFormed e.token := lexed.wellFormed _ (by simp)
    refine legible_cons (fun _ _ => separate_left rfl) (.leaf rfl ?_) rest
    rw [token] at formed
    rw [excerpt, token]
    exact ⟨body, formed, rfl⟩
  | @other e es ns token content ih =>
    rintro o ⟨excerpt, -, tiles⟩ lexed names
    have rest := ih tiles lexed.tail (by simpa [allHaveNames, Node.hasNames] using names)
    have formed : Token.WellFormed e.token := lexed.wellFormed _ (by simp)
    refine legible_cons (fun _ _ => separate_left rfl) (.leaf rfl ?_) rest
    rw [excerpt]
    exact ⟨e.token, token, lexeme_of_isOther token formed, rfl⟩
  | @single e es ns content tag token tagged _ ih =>
    rintro o ⟨excerpt, -, tiles⟩ lexed names
    rw [allHaveNames, Node.hasNames, Bool.and_eq_true, Bool.and_eq_true, Bool.and_eq_true] at names
    obtain ⟨⟨⟨name, keys⟩, -⟩, names⟩ := names
    have formed : Token.WellFormed e.token := lexed.wellFormed _ (by simp)
    obtain ⟨read, shape⟩ := of_tagOf tagged
    have named := named_of_tagOf tagged name keys
    -- the tag is the one that was read, with its excerpt as its text
    have sound : tag.Sound := by
      rw [token] at formed
      refine Tag.sound_of_empty formed ⟨by rw [shape], read⟩ named.name (by rw [shape])
        (by rw [shape]) ?_
      rw [excerpt, token]
    exact legible_cons (fun _ _ => separate_left rfl)
      (every_element.2 ⟨⟨sound, named, .nil⟩, by simp⟩) (ih tiles lexed.tail names)
  | @pair e last inner es children ns content end_ tag token tagged inside closes same _ ihi ih =>
    rintro o ⟨excerpt, -, tiles⟩ lexed names
    rw [allHaveNames, Node.hasNames, Bool.and_eq_true, Bool.and_eq_true, Bool.and_eq_true] at names
    obtain ⟨⟨⟨name, keys⟩, below⟩, names⟩ := names
    -- the events between the tags and those behind the end tag, each with what holds of them
    obtain ⟨tiles_inner, excerpt', -, tiles⟩ := tiles_append.1 tiles
    have lexed' := lexed.tail
    rw [List.map_append, List.map_cons, lexed_append] at lexed'
    obtain ⟨lexed_inner, lexed_rest, -⟩ := lexed'
    obtain ⟨chain_inner, legible_inner⟩ := ihi tiles_inner lexed_inner below
    have opens : Token.WellFormed e.token := lexed.wellFormed _ (by simp)
    have ends : Token.WellFormed last.token := lexed.wellFormed _ (by simp)
    obtain ⟨read, shape⟩ := of_tagOf tagged
    have named := named_of_tagOf tagged name keys
    have sound : (tag.closedBy last.excerpt).Sound := by
      have origin : (tag.closedBy last.excerpt).origin
          = some ⟨e.position, e.excerpt, some last.excerpt⟩ := by
        rw [shape]
        rfl
      rw [token] at opens
      rw [closes] at ends
      refine Tag.sound_of_pair opens ⟨by rw [shape]; rfl, read⟩ ends same.symm ?_ origin ?_ ?_
      · rw [shape]
        rfl
      · rw [excerpt, token]
      · rw [excerpt', closes]
    exact legible_cons (fun _ _ => separate_left rfl)
      (every_element.2 ⟨⟨sound, ⟨named.name, named.keys, named.distinct⟩, chain_inner⟩, legible_inner⟩)
      (ih tiles lexed_rest.tail names)

end XmlGraft.Markup
