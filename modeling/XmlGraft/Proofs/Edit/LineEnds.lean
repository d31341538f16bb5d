/-
  LineEnds — the line ends in a tree.

  Whether all line ends of a text are of one kind is a property that is lost when a carriage return
  is torn from its line feed, or when the two are joined by accident.  It is followed here from a
  text to the tree that is read from it, through changes of that tree.  What is said is said of any
  property that survives being cut where no line end is torn (`Seamless`); the kinds of line ends
  are instances.

  1. **Tokens** (`Seamless.written`): a text is cut at its tokens, and no token tears a line end.
     Markup begins with `<` and ends in `>`, which are no part of one, and character data stands
     between markup.

  2. **Trees** (`Node.Ends`): raw text has a seamless property, and names hold no line end.  Reading
     gives such a tree (`Document.ends_of_parse`).  Nothing is asked of the values of attributes:
     they are written as tags, and what becomes of tags is seen where they are written.

  3. **Escaped text** (`Seamless.escapeText`): only characters that are no line ends are replaced,
     and by texts without any.

  4. **Edited trees** (`Element.Ends.changeEnd`): a change at the end of a route leaves the tree
     one, when what is written has the property too.
-/
import XmlGraft.Proofs.Edit.Routes
import XmlGraft.Proofs.Markup.Documents
import XmlGraft.Proofs.Text.Terminators

namespace XmlGraft

open Markup

variable {P : Text → Prop}

/-! ## Tokens -/

namespace Text

/-- **The tokens of a text** have the property when the text has it.  Markup begins with `<` and
    ends in `>`, and character data stands between markup, so no seam between tokens is inside a
    line end; only in front of the first token this has to be asked for. -/
theorem Seamless.written (h : Seamless P) {tokens : List Token} (apart : tokens.IsChain Apart)
    {s t : Text} (whole : P (s ++ (tokens.flatMap Token.written ++ t)))
    (first : ∀ token ∈ tokens.head?, token.isCharacters = true → s.getLast? ≠ some '\r') :
    ∀ token ∈ tokens, P token.written := by
  induction tokens generalizing s with
  | nil => exact List.forall_mem_nil _
  | cons token tokens ih =>
    rw [List.flatMap_cons, List.append_assoc] at whole
    have untorn : Untorn s (token.written ++ (tokens.flatMap Token.written ++ t)) := by
      cases kind : token.isCharacters with
      | true => exact fun isReturn => absurd isReturn (first token rfl kind)
      | false =>
        obtain ⟨rest, begins⟩ := Token.written_eq_cons kind
        exact untorn_of_head (by rw [begins]; simp)
    have own := h.back whole untorn
    refine List.forall_mem_cons.2 ⟨h.front own, ih apart.tail own fun next hn chars => ?_⟩
    -- what stands before character data is markup
    cases kind : token.isCharacters with
    | true =>
      rw [apart.rel_head? hn kind] at chars
      cases chars
    | false => simp [Token.last_written kind]

end Text

/-! ## Trees -/

namespace Markup

open Text

theorem no_break_of_isTagSpace {c : Char} (h : isTagSpace c = false) : c ≠ '\n' ∧ c ≠ '\r' :=
  ⟨fun feed => by rw [feed] at h; exact absurd h (by decide),
    fun isReturn => by rw [isReturn] at h; exact absurd h (by decide)⟩

/-- Plain names hold no space at all, so no line end. -/
theorem PlainName.unbroken {name : Text} (h : PlainName name) : Unbroken name :=
  fun c hc => no_break_of_isTagSpace (h.plain c hc).no_tagSpace

theorem unbroken_tagName (content : Text) : Unbroken (tagName content) := fun c hc =>
  no_break_of_isTagSpace (by simpa using List.mem_takeWhile_imp hc)

/-- The key of an attribute begins behind the spaces and ends before the next one. -/
theorem unbroken_of_nextAttribute {total o o' : Nat} {seen : List (Text × Nat)} {t rest : Text}
    {a : WrittenAttribute} (h : nextAttribute total seen o t = .ok (some (a, o', rest))) :
    Unbroken a.key := by
  unfold nextAttribute at h
  split at h
  · cases h
  · next k t skipped =>
    obtain ⟨-, -, no_space, -⟩ := skipSpace_cons skipped
    have key : Unbroken (k :: t.takeWhile isKeyChar) := by
      refine List.forall_mem_cons.2 ⟨no_break_of_isTagSpace no_space, fun c hc => ?_⟩
      have keyChar := List.mem_takeWhile_imp hc
      rw [isKeyChar, Bool.and_eq_true, Bool.not_eq_true'] at keyChar
      exact no_break_of_isTagSpace keyChar.2
    simp only at h
    repeat' split at h
    all_goals cases h
    exact key

/-- **Keys hold no line ends**, whatever the values between them hold.  Along the reading, which
    shortens the rest with each attribute. -/
theorem unbroken_of_attributesFrom {t : Text} :
    ∀ {total o : Nat} {seen : List (Text × Nat)} {as : List Attribute},
      attributesFrom total seen o t = .ok as → ∀ a ∈ as, Unbroken a.name := by
  induction hn : t.length using Nat.strongRecOn generalizing t with
  | ind n ih =>
    intro total o seen as h
    rcases attributesFrom_eq_ok h with ⟨-, rfl⟩ | ⟨a, o', rest, value, more, read, -, others, rfl⟩
    · exact List.forall_mem_nil _
    · exact List.forall_mem_cons.2 ⟨unbroken_of_nextAttribute read,
        ih rest.length (hn ▸ length_lt_of_nextAttribute read) rfl others⟩

/-- **A tag without line ends in its names.** -/
structure Tag.Unbroken (t : Tag) : Prop where
  name : Text.Unbroken t.name
  keys : ∀ a ∈ t.attributes, Text.Unbroken a.name

theorem Tag.unbroken_of_tagOf {e : Event} {content : Text} {tag : Tag}
    (h : Builder.tagOf e content = .ok tag) : tag.Unbroken := by
  obtain ⟨read, shape⟩ := of_tagOf h
  refine ⟨?_, unbroken_of_attributesFrom read⟩
  rw [shape]
  exact unbroken_tagName content

/-- **The line ends of a node**: there are none in names, and those of raw text have a property. -/
def Node.Ends (P : Text → Prop) : Node → Prop
  | .element tag _ => tag.Unbroken
  | .text raw => P raw
  | .comment raw => P raw
  | .other markup => P markup

/-- **The line ends of an element**, and of everything in it. -/
def Element.Ends (P : Text → Prop) (e : Element) : Prop := e.toNode.Every (Node.Ends P)

/-- An element is asked for its tag, and then everything in it. -/
theorem Element.ends_iff {e : Element} :
    e.Ends P ↔ e.tag.Unbroken ∧ ∀ n ∈ e.children, n.Every (Node.Ends P) := every_element

/-- What events make up has the line ends of the tokens. -/
theorem every_ends_of_content {es : List Event} {ns : List Node} (h : Content es ns) :
    ∀ {o : Nat}, Tiles o es → (∀ e ∈ es, P e.token.written) →
      ∀ n ∈ ns, n.Every (Node.Ends P) := by
  induction h with
  | nil => exact fun _ _ => List.forall_mem_nil _
  | text token _ _ ih | comment token _ ih | other token _ ih =>
    rintro o ⟨excerpt, -, tiles⟩ tokens
    rw [List.forall_mem_cons] at tokens
    refine List.forall_mem_cons.2 ⟨.leaf rfl ?_, ih tiles tokens.2⟩
    rw [excerpt]
    exact tokens.1
  | single token tagged _ ih =>
    rintro o ⟨-, -, tiles⟩ tokens
    rw [List.forall_mem_cons] at tokens
    exact List.forall_mem_cons.2 ⟨.element (Tag.unbroken_of_tagOf tagged) (List.forall_mem_nil _),
      ih tiles tokens.2⟩
  -- the events of a pair are those of its children, between its two tags
  | pair token tagged _ closes _ _ ihi ih =>
    rintro o ⟨-, -, tiles⟩ tokens
    obtain ⟨tiles_inner, -, -, tiles⟩ := tiles_append.1 tiles
    rw [List.forall_mem_cons, List.forall_mem_append, List.forall_mem_cons] at tokens
    obtain ⟨name, keys⟩ := Tag.unbroken_of_tagOf tagged
    exact List.forall_mem_cons.2 ⟨.element ⟨name, keys⟩ (ihi tiles_inner tokens.2.1),
      ih tiles tokens.2.2.2⟩

/-- The root element begins with markup. -/
theorem Content.head_isCharacters {es : List Event} {root : Element} (h : Content es [root.toNode]) :
    ∀ e ∈ es.head?, e.token.isCharacters = false := by
  obtain ⟨tag, children⟩ := root
  simp only [Element.toNode] at h
  cases h with
  | single token _ _ | pair token _ _ _ _ _ =>
    intro e he
    cases he
    rw [token]
    rfl

/-- **A tree that was read has the line ends of its text.**  The tokens of the text have them, and
    the nodes of the tree are made of tokens.  With a second byte-order mark in front, the tags
    would be cut out of the text three bytes too early. -/
theorem Document.ends_of_parse (h : Seamless P) {text : Text} {d : Document}
    (one : AtMostOneMark text) (parsed : parse text = .ok d) (whole : P text) : d.root.Ends P := by
  obtain ⟨f, tokens, -, -, -, lexed, content, text_eq⟩ := exists_content_of_parse one parsed
  rw [text_eq, List.append_assoc] at whole
  have events := map_token_placed f.prolog.size f.position tokens
  -- the root begins with a tag, so the first token does not depend on what the prolog ends in
  have first : ∀ token ∈ tokens.head?, token.isCharacters = false := by
    intro token ht
    rw [← events, List.head?_map] at ht
    obtain ⟨e, he, rfl⟩ := Option.map_eq_some_iff.1 ht
    exact content.head_isCharacters e he
  have written := h.written lexed.apart whole fun token ht chars => by
    rw [first token ht] at chars
    cases chars
  refine every_ends_of_content content (tiles_placed _ _ _) (fun e he => ?_) _
    (List.mem_singleton_self _)
  refine written e.token ?_
  rw [← events]
  exact List.mem_map_of_mem he

end Markup

/-! ## Escaped text -/

namespace Text

/-- A character that is escaped is no line end, and neither is anything it is replaced by. -/
theorem replaces_escapeTextChar (c : Char) :
    escapeTextChar c = [c] ∨ Unbroken [c] ∧ Unbroken (escapeTextChar c) := by
  unfold escapeTextChar
  split
  · exact .inr (by decide)
  · exact .inr (by decide)
  · exact .inr (by decide)
  · exact .inl rfl

theorem replaces_escapeValueChar (c : Char) :
    escapeValueChar c = [c] ∨ Unbroken [c] ∧ Unbroken (escapeValueChar c) := by
  unfold escapeValueChar
  split
  · exact .inr (by decide)
  · exact .inr (by decide)
  · exact replaces_escapeTextChar c

/-- **Escaping leaves line ends alone**: a text and the same text escaped have them in the same
    places, since each character is replaced by itself or by a reference, which holds none. -/
theorem Seamless.escapeText (h : Seamless P) {t : Text} (whole : P t) : P (escapeText t) :=
  h.replaced (s := []) replaces_escapeTextChar whole

theorem Seamless.escapeValue (h : Seamless P) {t : Text} (whole : P t) : P (escapeValue t) :=
  h.replaced (s := []) replaces_escapeValueChar whole

end Text

/-! ## Edited trees -/

namespace Markup

open Text

theorem ends_named {name : Text} (plain : Unbroken name) : (Element.named name).Ends P :=
  Element.ends_iff.2 ⟨⟨plain, List.forall_mem_nil _⟩, List.forall_mem_nil _⟩

/-- The text for a value has the line ends of the value. -/
theorem ends_valueNodes (h : Seamless P) {value : Text} (ends : P value) :
    ∀ n ∈ Element.valueNodes value, n.Every (Node.Ends P) := by
  rw [Element.valueNodes]
  split
  · exact List.forall_mem_nil _
  · intro n hn
    obtain rfl := List.mem_singleton.1 hn
    exact .leaf rfl (h.escapeText ends)

namespace Element.Ends

variable {e : Element}

/-- Other children with the same line ends. -/
theorem withChildren (ends : e.Ends P) {ns : List Node} (b : Bool)
    (below : ∀ n ∈ ns, n.Every (Node.Ends P)) :
    (⟨{ e.tag with contentChanged := b }, ns⟩ : Element).Ends P := by
  obtain ⟨⟨name, keys⟩, -⟩ := ends_iff.1 ends
  exact ends_iff.2 ⟨⟨name, keys⟩, below⟩

/-- A new last child brings its own line ends. -/
theorem append (ends : e.Ends P) {x : Element} (new : x.Ends P) : (e.append x.toNode).Ends P := by
  refine ends.withChildren true (List.forall_mem_append.2 ⟨(ends_iff.1 ends).2, fun n hn => ?_⟩)
  rw [List.mem_singleton.1 hn]
  exact new

/-- A text that is set brings the line ends of the value. -/
theorem setText (h : Seamless P) (ends : e.Ends P) {value : Text} (own : P value) :
    (e.setText value).Ends P := by
  rw [Element.setText]
  split
  · exact ends
  · exact ends.withChildren true (ends_valueNodes h own)

/-- A child in the place of another. -/
theorem replace (ends : e.Ends P) {c c' : Element} {front back : List Node}
    (children : e.children = front ++ c.toNode :: back) (change : c.Ends P → c'.Ends P) :
    (⟨e.tag, front ++ c'.toNode :: back⟩ : Element).Ends P := by
  obtain ⟨own, below⟩ := ends_iff.1 ends
  rw [children, List.forall_mem_append, List.forall_mem_cons] at below
  refine ends_iff.2 ⟨own, ?_⟩
  rw [List.forall_mem_append, List.forall_mem_cons]
  exact ⟨below.1, change below.2.1, below.2.2⟩

/-- One value changes the line ends where it is written, and nowhere else. -/
theorem writeOne (h : Seamless P) (ends : e.Ends P) {name value : Text} (plain : Unbroken name)
    (own : P value) : (Fields.writeOne e name value).1.Ends P := by
  rcases Fields.writeOne_cases e name value with
    ⟨front, c, back, children, -, -, ⟨-, done⟩ | done⟩ | ⟨-, done⟩ <;> rw [done]
  · exact ends
  · exact ends.replace children fun child => child.setText h own
  · exact ends.append (ends_iff.2 ⟨⟨plain, List.forall_mem_nil _⟩, ends_valueNodes h own⟩)

/-- **Values written into an element** bring their own line ends.  The names stand in the tags of
    new children, and so are asked to hold none at all. -/
theorem writeAll (h : Seamless P) (ends : e.Ends P) {values : List (Text × Text)}
    (own : ∀ v ∈ values, Unbroken v.1 ∧ P v.2) : (Fields.writeAll e values).1.Ends P := by
  induction values generalizing e with
  | nil => exact ends
  | cons v values ih =>
    rw [List.forall_mem_cons] at own
    exact ih (ends.writeOne h own.1.1 own.1.2) own.2

/-- **A change at the end of a route** keeps the line ends of the tree when it keeps those of an
    element, and what is created has them. -/
theorem changeEnd {f : Element → Element} {route : Route} (ends : e.Ends P)
    (creates : ∀ s ∈ route, s.create.Ends P) (change : ∀ x : Element, x.Ends P → (f x).Ends P) :
    (Route.changeEnd f route e).Ends P := by
  induction route generalizing e with
  | nil => exact change e ends
  | cons s route ih =>
    rw [List.forall_mem_cons] at creates
    cases found : e.findChild? s.accepts with
    | some child =>
      obtain ⟨i, c⟩ := child
      obtain ⟨front, back, children, rfl, -, -⟩ := findChild?_eq_some_iff.1 found
      rw [Route.changeEnd_of_some found, putChild_eq children]
      exact ends.replace children fun child => ih child creates.2
    -- the rest of the route is built in a created element, to which the induction applies
    | none =>
      rw [Route.changeEnd_of_none found]
      exact ends.append (ih creates.1 creates.2)

end Element.Ends

end Markup

end XmlGraft
