/-
  Rendered — an element on lines of its own is read back as what it says.

  Rendering an element is laying it out at a margin without lead, from depth zero.  So what is known
  of laid trees applies, but for two things.  The element need not be a whole document: it may stand
  anywhere in one, next to nodes that are no part of it, and still it is legible.  And what is read
  is to be told without speaking of layout, as the tree that one would write down.

  1. **Lines** (`rendered_eq`): what is rendered is the written form of the laid element, at a
     margin without lead.

  2. **Legible parts** (`every_legible_of_content`): in a tree that was read, every node whose names
     are names is legible, whatever stands around it.  By induction on what events make up, where
     each node is the content of its own events.

  3. **Settled trees** (`Node.settled`): names, attributes, markup and order as they were, text
     trimmed, comments moved to their depth.

  4. **Rendering** (`exists_parse_rendered`): what is rendered is read as the settled tree, and
     rendering that again gives the same text.  The second half needs comments in which returns end
     lines, since others are taken for spaces and trimmed.

  The unit may be any, of positive width or not, spaces or tabs; the depth of a comment is where it
  enters.  Nothing is asked of texts and of attribute values: they may hold line feeds, and these
  come out where they were.
-/
import XmlGraft.Proofs.Graft.Settled
import XmlGraft.Proofs.Markup.Documents

namespace XmlGraft

open Markup

/-! ## Lines -/

/-- The first text, and the others each behind a separator. -/
theorem Text.join_cons (sep first : Text) (more : List Text) :
    Text.join sep (first :: more) = first ++ more.flatMap (sep ++ ·) := by
  induction more generalizing first with
  | nil => simp [Text.join]
  | cons second more ih =>
    have rest := ih second
    rw [Text.join] at rest ⊢
    rw [List.intercalate_cons_cons, rest, List.flatMap_cons, List.append_assoc, List.append_assoc]

namespace Graft

/-- Lines one behind the other, each at its own indentation. -/
def Margin.plain (unit : IndentUnit) : Margin := ⟨['\n'], [], unit⟩

/-- A margin without lead is proper. -/
theorem proper_plain (unit : IndentUnit) : (Margin.plain unit).Proper :=
  ⟨.inl rfl, List.forall_mem_nil _⟩

/-- **What is rendered is the laid element**, at a margin that has only a line feed for a
    terminator and nothing before its lines. -/
theorem rendered_eq (unit : IndentUnit) (e : Element) :
    Layout.rendered unit e = ((Margin.plain unit).laidElement 0 e).written := by
  have flowing := flow_lines (Margin.plain unit) e
  obtain ⟨first, more, lines, -⟩ := exists_lines unit e
  have same : (Margin.plain unit).unit = unit := rfl
  have line : (Margin.plain unit).line = (['\n'] ++ ·) := by
    funext t
    cases t <;> rfl
  rw [same, lines, Margin.flow, line] at flowing
  rw [Layout.rendered, lines, Text.join_cons, flowing]

end Graft

/-! ## Legible parts -/

namespace Markup

/-- **In a tree that was read, every node whose names are names is legible.**  The condition is
    inside the statement for each node, for an element may be well named in a document that is
    not. -/
theorem every_legible_of_content {es : List Event} {ns : List Node} (h : Content es ns) :
    ∀ {o : Nat}, Tiles o es → Lexed (es.map (·.token)) →
      ∀ n ∈ ns, n.Every fun n => n.hasNames = true → n.Every Node.Legible := by
  -- a node on its own is the content of its events
  have own {es : List Event} {n : Node} (content : Content es [n]) {o : Nat} (tiles : Tiles o es)
      (lexed : Lexed (es.map (·.token))) (names : n.hasNames = true) : n.Every Node.Legible := by
    have all : allHaveNames [n] = true := by rw [allHaveNames, names]; rfl
    exact (legible_of_content content tiles lexed all).2 n (List.mem_singleton_self n)
  induction h with
  | nil => exact fun _ _ => List.forall_mem_nil _
  | @text e es ns raw value token resolved _ ih =>
    rintro o ⟨excerpt, located, tiles⟩ lexed
    refine List.forall_mem_cons.2 ⟨.leaf rfl ?_, ih tiles lexed.tail⟩
    exact own (.text token resolved .nil) ⟨excerpt, located, trivial⟩ (lexed_append.1 lexed).1
  | @comment e es ns body token _ ih =>
    rintro o ⟨excerpt, located, tiles⟩ lexed
    refine List.forall_mem_cons.2 ⟨.leaf rfl ?_, ih tiles lexed.tail⟩
    exact own (.comment token .nil) ⟨excerpt, located, trivial⟩ (lexed_append.1 lexed).1
  | @other e es ns token _ ih =>
    rintro o ⟨excerpt, located, tiles⟩ lexed
    refine List.forall_mem_cons.2 ⟨.leaf rfl ?_, ih tiles lexed.tail⟩
    exact own (.other token .nil) ⟨excerpt, located, trivial⟩ (lexed_append.1 lexed).1
  | @single e es ns content tag token tagged _ ih =>
    rintro o ⟨excerpt, located, tiles⟩ lexed
    refine List.forall_mem_cons.2 ⟨.element ?_ (List.forall_mem_nil _), ih tiles lexed.tail⟩
    exact own (.single token tagged .nil) ⟨excerpt, located, trivial⟩ (lexed_append.1 lexed).1
  | @pair e last inner es children ns content end_ tag token tagged inside closes same _ ihi ih =>
    intro o tiles lexed
    have whole : e :: (inner ++ last :: es) = (e :: (inner ++ [last])) ++ es := by simp
    rw [whole] at tiles lexed
    rw [List.map_append] at lexed
    obtain ⟨tiles_own, tiles⟩ := tiles_append.1 tiles
    obtain ⟨lexed_own, lexed, -⟩ := lexed_append.1 lexed
    refine List.forall_mem_cons.2 ⟨.element ?_ ?_, ih tiles lexed⟩
    · exact own (.pair token tagged inside closes same .nil) tiles_own lexed_own
    · -- the events between the tags are those of the children
      obtain ⟨-, -, tiles_inner⟩ := tiles_own
      have lexed_inner := lexed_own.tail
      rw [List.map_append] at lexed_inner
      exact ihi (tiles_append.1 tiles_inner).1 (lexed_append.1 lexed_inner).1

/-- **An element of a document that was read** is legible, when the names in it are names; those
    outside it do not matter. -/
theorem Document.legible_of_below? {text : Text} {d : Document} (one : AtMostOneMark text)
    (parsed : parse text = .ok d) {p : List Nat} {e : Element} (there : d.root.below? p = some e)
    (names : e.hasNames = true) : e.Legible := by
  obtain ⟨f, tokens, -, -, -, lexed, content, -⟩ := exists_content_of_parse one parsed
  rw [← map_token_placed f.prolog.size f.position tokens] at lexed
  have all := every_legible_of_content content (tiles_placed _ _ _) lexed d.root.toNode
    (List.mem_singleton_self _)
  exact (Element.every_below? all there).own names

/-! ## Settled trees -/

open Layout

mutual

/-- **A node as it is to be read again**, at a depth: without what it remembers of its source and
    without text of spaces, other text trimmed, and a comment moved to its depth. -/
def Node.settled (unit : IndentUnit) (depth : Nat) : Node → Node
  | .element tag children => .element tag.bare (settledAll unit (depth + 1) children)
  | .text raw => .text (Text.trim raw)
  | .comment raw =>
    .comment (Token.comment (Text.join ['\n']
      (commentLines (commentBody raw) (unit.indent depth)))).written
  | .other markup => .other markup

/-- Nodes as they are to be read again. -/
def settledAll (unit : IndentUnit) (depth : Nat) : List Node → List Node
  | [] => []
  | n :: ns =>
    if n.isLayout then settledAll unit depth ns
    else n.settled unit depth :: settledAll unit depth ns

end

mutual

/-- **A node without text of spaces**, and without what it remembers of its source. -/
def Node.unspaced : Node → Node
  | .element tag children => .element tag.bare (unspacedAll children)
  | .text raw => .text raw
  | .comment raw => .comment raw
  | .other markup => .other markup

/-- Nodes without text of spaces. -/
def unspacedAll : List Node → List Node
  | [] => []
  | n :: ns => if n.isLayout then unspacedAll ns else n.unspaced :: unspacedAll ns

end

/-- What is left without text of spaces does not depend on the source. -/
theorem unspaced_bare (n : Node) : n.bare.unspaced = n.unspaced := by
  induction n using Node.induct with
  | element tag children ih =>
    rw [Node.bare, Node.unspaced, Node.unspaced, Tag.bare_bare]
    congr 1
    induction children with
    | nil => rfl
    | cons n ns ih' =>
      rw [List.forall_mem_cons] at ih
      rw [bareAll, unspacedAll, unspacedAll, isLayout_bare, ih.1, ih' ih.2]
  | _ => rfl

end Markup

namespace Graft

open Layout

/-- A comment at a margin without lead. -/
theorem movedBody_plain (unit : IndentUnit) (depth : Nat) (body : Text) :
    (Margin.plain unit).movedBody depth body
      = Text.join ['\n'] (commentLines body (unit.indent depth)) := by
  rw [Margin.movedBody, commentLines]
  cases linesOf body with
  | nil => rfl
  | cons first more => rw [Text.join_cons]; rfl

/-- **What is laid out without a lead is the settled tree**, with spaces between.  The settled
    tree says what becomes of texts and comments, and leaves all breaks out. -/
theorem unspaced_laid (unit : IndentUnit) (n : Node) :
    ∀ depth, ((Margin.plain unit).laid depth n).unspaced = n.settled unit depth := by
  have breaks := isLayout_breakAt (proper_plain unit)
  induction n using Node.induct with
  | element tag children ih =>
    intro depth
    have inside (fresh : Bool) : unspacedAll ((Margin.plain unit).laidAll depth fresh children)
        = settledAll unit (depth + 1) children := by
      induction children generalizing fresh with
      | nil => cases fresh <;> simp [Margin.laidAll, unspacedAll, settledAll, breaks]
      | cons n ns ih' =>
        rw [List.forall_mem_cons] at ih
        rw [Margin.laidAll, settledAll]
        split
        · exact ih' ih.2 fresh
        · next content =>
          have own : unspacedAll ((Margin.plain unit).laid (depth + 1) n
              :: (Margin.plain unit).laidAll depth n.beginsLine ns)
              = n.settled unit (depth + 1) :: settledAll unit (depth + 1) ns := by
            rw [unspacedAll, if_neg (by rwa [isLayout_laid]), ih.1, ih' ih.2]
          split
          · rw [List.singleton_append, unspacedAll, if_pos (breaks _), own]
          · exact own
    -- a content of layout alone is left out when it is laid out, and it is settled as nothing
    have nothing (h : children.all Node.isLayout = true) : settledAll unit (depth + 1) children = [] := by
      clear ih inside
      induction children with
      | nil => rfl
      | cons n ns ih' =>
        rw [List.all_cons, Bool.and_eq_true] at h
        rw [settledAll, if_pos h.1, ih' h.2]
    rw [Margin.laid, Node.unspaced, Node.settled, Tag.bare_bare]
    split
    · next layout => rw [nothing layout]; rfl
    · rw [inside]
  | text raw => exact fun _ => rfl
  | comment raw =>
    intro depth
    rw [Margin.laid, flow_commentPiece, movedBody_plain]
    rfl
  | other markup => exact fun _ => rfl

end Graft

/-! ## Rendering -/

/-- **An empty frame**: nothing stands around the root element. -/
def Markup.Frame.empty : Frame where
  mark := []
  before := []
  after := []
  isMark := .inl rfl
  lexed_before := .nil
  lexed_after := .nil
  around_before := List.forall_mem_nil _
  around_after := List.forall_mem_nil _
  unmarked := by simp [Unmarked]

open Graft in
/-- **Rendering keeps what an element says**: the text is read as the settled element, with nothing
    around it, and rendering the element that is read gives the text again. -/
theorem exists_parse_rendered {text : Text} {d : Document} {p : Address} {e : Element}
    (one : AtMostOneMark text) (parsed : Document.parse text = .ok d) (there : d.root.at? p = some e)
    (names : e.hasNames = true) (clean : e.toNode.Every Node.CleanComment) (unit : IndentUnit) :
    ∃ d', Document.parse (Layout.rendered unit e) = .ok d' ∧ d'.prolog = [] ∧ d'.epilog = [] ∧
      d'.root.toNode.unspaced = e.toNode.settled unit 0 ∧
      Layout.rendered unit d'.root = Layout.rendered unit e := by
  have proper := proper_plain unit
  have legible := Document.legible_of_below? one parsed there names
  obtain ⟨d', parsed', prolog, epilog, bare, -⟩ :=
    Document.parse_written .empty (legible_laidElement proper legible 0)
  -- there is no prolog and no epilog, so the text is that of the root
  have nothing : Frame.empty.prolog = [] ∧ Frame.empty.epilog = [] := ⟨rfl, rfl⟩
  rw [nothing.1, nothing.2, List.nil_append, List.append_nil, ← rendered_eq] at parsed'
  refine ⟨d', parsed', prolog, epilog, ?_, ?_⟩
  · rw [← unspaced_bare, Element.bare_toNode, bare, ← Element.bare_toNode, unspaced_bare, ← laid_toNode,
      unspaced_laid]
  · rw [rendered_eq, rendered_eq, laidElement_laidElement proper clean bare]

/-! ### A comment of four lines -/

namespace FourLines

/-- An element with all kinds of children; its comment has an empty line and an indented last one. -/
def text : Text := "<r><a k='1'> x <!--u\n   v\n\n    w--><![CDATA[z]]> <b/></a></r>".toList

/-- The comment. -/
def comment : Text := "<!--u\n   v\n\n    w-->".toList

/-- The element, as it is read. -/
def element : Element :=
  ⟨⟨['a'], [⟨['k'], ['1']⟩], some ⟨some ⟨1, 4⟩, ⟨⟨3, 12⟩, "<a k='1'>".toList⟩,
      some ⟨⟨53, 57⟩, "</a>".toList⟩⟩, false, false⟩,
    [.text " x ".toList, .comment comment, .other "<![CDATA[z]]>".toList, .text [' '],
      .element ⟨['b'], [], some ⟨some ⟨4, 23⟩, ⟨⟨49, 53⟩, "<b/>".toList⟩, none⟩, false, false⟩ []]⟩

/-- The document. -/
def document : Document :=
  ⟨Source.ofText text, [], ⟨⟨['r'], [], some ⟨some ⟨1, 1⟩, ⟨⟨0, 3⟩, "<r>".toList⟩,
    some ⟨⟨57, 61⟩, "</r>".toList⟩⟩, false, false⟩, [element.toNode]⟩, []⟩

theorem parse_text : Document.parse text = .ok document := by with_unfolding_all rfl

/-- No line of the comment ends in a lone return. -/
theorem clean_element : element.toNode.Every Node.CleanComment := by
  refine every_element.2 ⟨trivial, ?_⟩
  simp only [element, List.forall_mem_cons]
  refine ⟨.leaf rfl trivial, .leaf rfl ?_, .leaf rfl trivial, .leaf rfl trivial,
    .element trivial (List.forall_mem_nil _), List.forall_mem_nil _⟩
  exact (by decide : Text.ReturnsEndLines comment)

/-- The text that is rendered, two spaces a level. -/
def rendered : Text := "<a k=\"1\">x<!--u\n  v\n\n   w--><![CDATA[z]]><b/>\n</a>".toList

theorem rendered_element : Layout.rendered ⟨.space, 2⟩ element = rendered := by with_unfolding_all rfl

end FourLines

open FourLines in
/-- The lines of the comment are moved by one space, the text of spaces is left out, and rendering
    what is read changes nothing more. -/
theorem exists_parse_rendered_fourLines :
    AtMostOneMark text ∧ Document.parse text = .ok document ∧ document.root.at? ⟨[0]⟩ = some element ∧
    element.hasNames = true ∧ element.toNode.Every Node.CleanComment ∧
    ∃ d', Document.parse rendered = .ok d' ∧ d'.prolog = [] ∧ d'.epilog = [] ∧
      d'.root.toNode.unspaced = element.toNode.settled ⟨.space, 2⟩ 0 ∧
      Layout.rendered ⟨.space, 2⟩ d'.root = rendered := by
  have one : AtMostOneMark text := by decide
  have there : document.root.at? ⟨[0]⟩ = some element := rfl
  have names : element.hasNames = true := by with_unfolding_all rfl
  have whole := exists_parse_rendered one parse_text there names clean_element ⟨.space, 2⟩
  rw [rendered_element] at whole
  exact ⟨one, parse_text, there, names, clean_element, whole⟩

end XmlGraft
