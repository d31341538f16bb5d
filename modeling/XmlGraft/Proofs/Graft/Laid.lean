/-
  Laid — the tree that the text in the place of an element is the text of.

  A replacement is put together from lines.  It is also the written form of a tree: that of the
  element, without what it remembers of its source, with text of spaces where lines break.  The
  second form is the one to reason with, since what is known of written trees, that they are read
  back and as what, applies to it.  This module goes from the first form to the second.

  1. **Margins** (`Margin`): what stands between two lines.

  2. **Flow** (`flow_layOut`): lines put behind one another are pieces put behind one another, with
     breaks between them.  A piece may have several lines, and what comes next may stay on its last
     one, so lines are joined in two ways; `Flows` says what a piece has to be for both to come to
     the same.

  3. **The laid tree** (`Margin.laid`): what the pieces of a node are written as.  It follows the
     nodes as the pieces do.  Whether a break stands before a node depends on the node before it,
     which is why `laidAll` carries a flag along.

  4. **The replacement** (`replacement_eq`): a break, the laid element, and another break when
     nothing stands behind it, so that the end tag of the parent is on a line of its own.

  The definitions follow the layout with one difference.  The layout goes from nodes to pieces and
  from pieces to lines, and forgets the tree on the way; the laid tree keeps it.  So the induction
  that links the two (`laysOut`) speaks of a node together with whatever comes behind it, since the
  last line of a piece is not finished before that is known.
-/
import XmlGraft.Graft.Basic
import XmlGraft.Proofs.Markup.Nodes

namespace XmlGraft.Graft

open Markup Layout

/-! ## Margins -/

/-- **Margin**: how lines are put behind one another. -/
structure Margin where
  terminator : Text
  /-- What each line with content begins with. -/
  lead : Text
  /-- How deeper lines are indented. -/
  unit : IndentUnit

namespace Margin

/-- One line behind its terminator; a line without content is not indented. -/
def line (m : Margin) (line : Text) : Text :=
  m.terminator ++ if line.isEmpty then [] else m.lead ++ line

/-! ## Flow -/

/-- Lines that go on where something stands: the first as it is, each other one behind its
    terminator. -/
def flow (m : Margin) : List Text → Text
  | [] => []
  | first :: more => first ++ more.flatMap m.line

/-- What a line at a depth begins with. -/
def indent (m : Margin) (depth : Nat) : Text := m.lead ++ m.unit.indent depth

/-- The end of a line, and the beginning of one at a depth. -/
def breakAt (m : Margin) (depth : Nat) : Text := m.terminator ++ m.indent depth

theorem line_append {m : Margin} {line : Text} (some_text : line ≠ []) (more : Text) :
    m.line (line ++ more) = m.line line ++ more := by
  rw [Margin.line, Margin.line, List.isEmpty_eq_false_iff.2 some_text,
    List.isEmpty_eq_false_iff.2 (by simp [some_text])]
  simp only [Bool.false_eq_true, if_false, List.append_assoc]

theorem line_indent (m : Margin) (depth : Nat) {line : Text} (some_text : line ≠ []) :
    m.line (m.unit.indent depth ++ line) = m.breakAt depth ++ line := by
  rw [Margin.line, List.isEmpty_eq_false_iff.2 (by simp [some_text])]
  simp only [Bool.false_eq_true, if_false, breakAt, indent, List.append_assoc]

theorem continueLines_cons (first second : Text) (lines more : List Text) :
    continueLines (first :: second :: lines) more
      = first :: continueLines (second :: lines) more := by
  cases more <;> rfl

/-- Lines can be continued where the last one holds something. -/
theorem flatMap_continueLines (m : Margin) {lines more : List Text} {last : Text}
    (ends : lines.getLast? = some last) (some_text : last ≠ []) :
    (continueLines lines more).flatMap m.line = lines.flatMap m.line ++ m.flow more := by
  induction lines with
  | nil => cases ends
  | cons line lines ih =>
    cases lines with
    | nil =>
      -- here is the last line, on which the next ones go on
      obtain rfl : line = last := Option.some.inj ends
      cases more with
      | nil => simp [continueLines, flow]
      | cons next more =>
        rw [continueLines, List.flatMap_cons, line_append some_text, List.flatMap_singleton, flow,
          List.append_assoc]
    | cons second lines =>
      rw [continueLines_cons, List.flatMap_cons, ih ends]
      simp only [List.flatMap_cons, List.append_assoc]

/-- **Lines that are continued flow as the lines do and then as what continues them**, unless more
    than one line ends in an empty one. -/
theorem flow_continueLines (m : Margin) (lines more : List Text) {last : Text}
    (ends : lines.getLast? = some last) (closed : lines.length = 1 ∨ last ≠ []) :
    m.flow (continueLines lines more) = m.flow lines ++ m.flow more := by
  cases lines with
  | nil => cases ends
  | cons first lines =>
    cases lines with
    | nil => cases more <;> simp [continueLines, flow]
    | cons second lines =>
      have some_text : last ≠ [] := closed.resolve_left (by simp)
      have ends' : (second :: lines).getLast? = some last := ends
      rw [continueLines_cons, flow, flatMap_continueLines m ends' some_text, flow, List.append_assoc]

end Margin

/-- **A piece that flows**: what comes behind it stays on its last line. -/
structure Flows (p : Piece) : Prop where
  some_line : p.lines ≠ []
  closed : p.lines.length = 1 ∨ ∀ last ∈ p.lines.getLast?, last ≠ []
  begun : p.beginsLine = true → ∀ first ∈ p.lines.head?, first ≠ []

/-- Behind a piece that flows, lines go on as they are. -/
theorem Flows.flow_continueLines {p : Piece} (h : Flows p) (m : Margin) (more : List Text) :
    m.flow (continueLines p.lines more) = m.flow p.lines ++ m.flow more := by
  cases ends : p.lines.getLast? with
  | none => exact absurd (List.getLast?_eq_none_iff.1 ends) h.some_line
  | some last => exact m.flow_continueLines _ more ends (h.closed.imp id fun all => all last ends)

/-- The pieces behind one another, with breaks before those that begin a line. -/
def Margin.spread (m : Margin) : Bool → List Piece → Text
  | _, [] => []
  | fresh, p :: ps =>
    (if fresh && p.beginsLine then m.breakAt p.depth else []) ++ m.flow p.lines
      ++ m.spread p.beginsLine ps

/-- The first line stays the first when lines are continued. -/
theorem head_continueLines (lines : List Text) {first : Text} (some_text : first ≠ [])
    (head : lines.head? = some first) (more : List Text) :
    ∃ first' rest, continueLines lines more = first' :: rest ∧ first' ≠ [] := by
  cases lines with
  | nil => cases head
  | cons line lines =>
    cases head
    cases lines with
    | nil =>
      cases more with
      | nil => exact ⟨first, [], rfl, some_text⟩
      | cons next more => exact ⟨first ++ next, more, rfl, by simp [some_text]⟩
    | cons second lines =>
      exact ⟨first, _, Margin.continueLines_cons first second lines more, some_text⟩

/-- **Laid out pieces flow one behind the other**: the lines of all of them, put into one text,
    are what each gives for itself, with a break wherever a piece begins a line. -/
theorem flow_layOut (m : Margin) {ps : List Piece} (h : ∀ p ∈ ps, Flows p) (fresh : Bool) :
    m.flow (layOut m.unit fresh ps) = m.spread fresh ps := by
  induction ps generalizing fresh with
  | nil => rfl
  | cons p ps ih =>
    have flows := h p List.mem_cons_self
    -- without a break, the lines of the piece go on with those of the rest
    have own : m.flow (continueLines p.lines (layOut m.unit p.beginsLine ps))
        = m.flow p.lines ++ m.spread p.beginsLine ps := by
      rw [flows.flow_continueLines, ih fun q hq => h q (List.mem_cons_of_mem _ hq)]
    rw [layOut, Margin.spread]
    cases both : fresh && p.beginsLine with
    | false =>
      simp only [Bool.false_eq_true, if_false, List.nil_append]
      exact own
    | true =>
      obtain ⟨-, begins⟩ := Bool.and_eq_true_iff.1 both
      -- the first line of a piece that begins a line is not empty, so it is indented
      cases head : p.lines.head? with
      | none => exact absurd (List.head?_eq_none_iff.1 head) flows.some_line
      | some first =>
        obtain ⟨first', rest, lines, some_text⟩ := head_continueLines _ (flows.begun begins first head)
          head (layOut m.unit p.beginsLine ps)
        rw [lines] at own ⊢
        simp only [if_true]
        rw [List.append_assoc, ← own, continueLines, Margin.flow, List.nil_append,
          List.flatMap_cons, m.line_indent p.depth some_text, List.append_assoc, Margin.flow]

end XmlGraft.Graft

namespace XmlGraft.Markup

/-- Tags and comments begin a line. -/
def Node.beginsLine : Node → Bool
  | .element _ _ => true
  | .comment _ => true
  | _ => false

end XmlGraft.Markup

namespace XmlGraft.Graft

open Markup Layout

/-! ## The laid tree -/

mutual

/-- **The node as it is laid out** at a depth. -/
def Margin.laid (m : Margin) (depth : Nat) : Node → Node
  | .element tag children =>
    .element tag.bare (if children.all Node.isLayout then [] else m.laidAll depth true children)
  | .text raw => .text (Text.trim raw)
  | .comment raw => .comment (m.flow (commentPiece m.unit depth raw).lines)
  | .other markup => .other markup

/-- The content of an element that stands at a depth, as it is laid out.  `fresh` tells whether a
    tag or a comment may begin a line; at the end that is the end tag. -/
def Margin.laidAll (m : Margin) (depth : Nat) (fresh : Bool) : List Node → List Node
  | [] => if fresh then [.text (m.breakAt depth)] else []
  | n :: ns =>
    if n.isLayout then m.laidAll depth fresh ns
    else
      (if fresh && n.beginsLine then [.text (m.breakAt (depth + 1))] else [])
        ++ m.laid (depth + 1) n :: m.laidAll depth n.beginsLine ns

end

/-- An element as it is laid out. -/
def Margin.laidElement (m : Margin) (depth : Nat) (e : Element) : Element :=
  ⟨e.tag.bare, if e.children.all Node.isLayout then [] else m.laidAll depth true e.children⟩

theorem laid_toNode (m : Margin) (depth : Nat) (e : Element) :
    m.laid depth e.toNode = (m.laidElement depth e).toNode := by
  rw [Element.toNode, Margin.laid, Element.toNode, Margin.laidElement]

/-- A laid content that may begin a line holds something. -/
theorem laidAll_ne_nil (m : Margin) (depth : Nat) (ns : List Node) :
    m.laidAll depth true ns ≠ [] := by
  induction ns with
  | nil => rw [Margin.laidAll]; exact List.cons_ne_nil _ _
  | cons n ns ih =>
    rw [Margin.laidAll]
    split
    · exact ih
    · simp

/-- An element without content is one tag. -/
theorem written_laidElement_single {m : Margin} {depth : Nat} {e : Element}
    (layout : e.children.all Node.isLayout = true) :
    (m.laidElement depth e).written = e.tag.generatedStart ++ ['/', '>'] := by
  rw [Margin.laidElement, if_pos layout, Element.written, Element.toNode, written_single rfl]
  rfl

/-- An element with content is two tags, with the laid content between them. -/
theorem written_laidElement_pair {m : Margin} {depth : Nat} {e : Element}
    (content : e.children.all Node.isLayout = false) :
    (m.laidElement depth e).written = e.tag.generatedStart ++ ['>']
      ++ writtenAll (m.laidAll depth true e.children) ++ (['<', '/'] ++ e.tag.name ++ ['>']) := by
  rw [Margin.laidElement, if_neg (by rw [content]; exact Bool.false_ne_true), Element.written,
    Element.toNode, written_of_ne_nil (laidAll_ne_nil m depth e.children)]
  rfl

/-! ## Pieces -/

/-- A piece on one line. -/
theorem Flows.single {beginsLine : Bool} {depth : Nat} {line : Text}
    (begun : beginsLine = true → line ≠ []) : Flows ⟨beginsLine, depth, [line]⟩ :=
  ⟨List.cons_ne_nil _ _, .inl rfl, fun begins first head => by cases head; exact begun begins⟩

/-- Lines that are continued end as what continues them does. -/
theorem last_continueLines (lines more : List Text) (some_line : more ≠ [])
    (ends : ∀ last ∈ more.getLast?, last ≠ []) :
    continueLines lines more ≠ [] ∧ ∀ last ∈ (continueLines lines more).getLast?, last ≠ [] := by
  induction lines with
  | nil => exact ⟨some_line, ends⟩
  | cons line lines ih =>
    cases lines with
    | nil =>
      cases more with
      | nil => exact absurd rfl some_line
      | cons next more =>
        refine ⟨List.cons_ne_nil _ _, fun last h => ?_⟩
        rw [continueLines] at h
        cases more with
        | nil =>
          cases h
          have := ends next rfl
          simp [this]
        | cons second more => exact ends last h
    | cons second lines =>
      rw [Margin.continueLines_cons]
      refine ⟨List.cons_ne_nil _ _, fun last h => ih.2 last ?_⟩
      rwa [List.getLast?_cons_of_ne_nil ih.1] at h

/-- A comment begins on a line with its first delimiter and ends on one with its last. -/
theorem flows_comment (unit : IndentUnit) (depth : Nat) (raw : Text) :
    Flows (commentPiece unit depth raw) := by
  have body := last_continueLines (commentLines (commentBody raw) (unit.indent depth))
    [['-', '-', '>']] (List.cons_ne_nil _ _)
    (fun last h => by cases h; exact List.cons_ne_nil _ _)
  have whole := last_continueLines [['<', '!', '-', '-']] _ body.1 body.2
  refine ⟨whole.1, .inr whole.2, fun _ first h => ?_⟩
  obtain ⟨first', rest, lines, some_text⟩ := head_continueLines [['<', '!', '-', '-']]
    (List.cons_ne_nil '<' ['!', '-', '-']) rfl
    (continueLines (commentLines (commentBody raw) (unit.indent depth)) [['-', '-', '>']])
  rw [commentPiece, lines] at h
  cases h
  exact some_text

theorem allPieces_eq_flatMap (unit : IndentUnit) (depth : Nat) (ns : List Node) :
    allPieces unit depth ns = ns.flatMap (pieces unit depth) := by
  induction ns with
  | nil => rfl
  | cons n ns ih => rw [allPieces, ih, List.flatMap_cons]

/-- **Every piece flows**, by cases of the node: tags and texts are one line, and comments begin
    and end with a delimiter. -/
theorem flows_pieces (unit : IndentUnit) (n : Node) :
    ∀ depth, ∀ p ∈ pieces unit depth n, Flows p := by
  induction n using Node.induct with
  | element tag children ih =>
    intro depth p hp
    have start (last : Text) : tag.generatedStart ++ last ≠ [] := by
      rw [Tag.generatedStart_eq]
      exact List.cons_ne_nil _ _
    rw [pieces] at hp
    split at hp
    · obtain rfl := List.mem_singleton.1 hp
      exact .single fun _ => start _
    · rw [List.cons_append, List.mem_cons, List.mem_append, List.mem_singleton,
        allPieces_eq_flatMap] at hp
      rcases hp with rfl | hp | rfl
      · -- the start tag, then what is inside, then the end tag
        exact .single fun _ => start _
      · obtain ⟨n, hn, hp⟩ := List.mem_flatMap.1 hp
        exact ih n hn _ p hp
      · exact .single fun _ => List.cons_ne_nil _ _
  | text raw =>
    intro depth p hp
    rw [pieces] at hp
    split at hp
    · cases hp
    · obtain rfl := List.mem_singleton.1 hp
      exact .single fun h => by cases h
  | comment raw =>
    intro depth p hp
    obtain rfl := List.mem_singleton.1 hp
    exact flows_comment unit depth raw
  | other markup =>
    intro depth p hp
    obtain rfl := List.mem_singleton.1 hp
    exact .single fun h => by cases h

/-- **The pieces of a node are written as the node is laid out**, behind a break if it begins a
    line where one may begin. -/
def LaysOut (m : Margin) (n : Node) : Prop :=
  ∀ depth fresh ps, m.spread fresh (pieces m.unit depth n ++ ps)
    = if n.isLayout then m.spread fresh ps
      else (if fresh && n.beginsLine then m.breakAt depth else []) ++ (m.laid depth n).written
        ++ m.spread n.beginsLine ps

/-- The pieces of a content and of the end tag behind it. -/
theorem spread_allPieces {m : Margin} {ns : List Node} (h : ∀ n ∈ ns, LaysOut m n) (depth : Nat)
    (fresh : Bool) (close : Text) (ps : List Piece) :
    m.spread fresh (allPieces m.unit (depth + 1) ns ++ ⟨true, depth, [close]⟩ :: ps)
      = writtenAll (m.laidAll depth fresh ns) ++ close ++ m.spread true ps := by
  induction ns generalizing fresh with
  | nil =>
    rw [allPieces, List.nil_append, Margin.spread, Margin.laidAll, Bool.and_true]
    cases fresh <;> simp [Margin.flow, Node.written]
  | cons n ns ih =>
    have rest := ih fun m hm => h m (List.mem_cons_of_mem _ hm)
    rw [allPieces, List.append_assoc, h n List.mem_cons_self, Margin.laidAll]
    split
    · -- layout is left out, in the pieces as in the tree
      exact rest fresh
    · rw [rest]
      cases fresh && n.beginsLine <;> simp [Node.written]

/-- **All nodes are written as they are laid out.**  By induction on the node, for every depth and
    for whatever comes behind it. -/
theorem laysOut (m : Margin) (n : Node) : LaysOut m n := by
  induction n using Node.induct with
  | element tag children ih =>
    intro depth fresh ps
    rw [show Node.element tag children = (⟨tag, children⟩ : Element).toNode from rfl, laid_toNode,
      Element.toNode, pieces]
    show _ = (if fresh && true then m.breakAt depth else [])
      ++ (m.laidElement depth ⟨tag, children⟩).written ++ m.spread true ps
    split
    · next layout =>
      rw [written_laidElement_single layout, List.singleton_append, Margin.spread]
      simp [Margin.flow]
    · next content =>
      have inside := spread_allPieces ih depth true (['<', '/'] ++ tag.name ++ ['>']) ps
      rw [written_laidElement_pair (Bool.eq_false_iff.2 content), List.cons_append, List.cons_append,
        Margin.spread, List.append_assoc _ [_] ps, List.singleton_append]
      simp only [inside]
      simp [Margin.flow]
  | text raw =>
    intro depth fresh ps
    rw [pieces, Node.isLayout]
    split
    · rfl
    · rw [List.singleton_append, Margin.spread, Margin.laid]
      simp [Margin.flow, Node.beginsLine, Node.written]
  | comment raw =>
    intro depth fresh ps
    rw [pieces, List.singleton_append, Margin.spread, Margin.laid]
    simp [commentPiece, Node.beginsLine, Node.written, Node.isLayout]
  | other markup =>
    intro depth fresh ps
    rw [pieces, List.singleton_append, Margin.spread, Margin.laid]
    simp [Margin.flow, Node.beginsLine, Node.written, Node.isLayout]

/-! ## The replacement -/

/-- The margin of the lines at a site: one level below the parent. -/
def Surroundings.margin (s : Surroundings) : Margin :=
  ⟨s.terminator, s.base ++ s.unit.text, s.unit⟩

/-- The first line of an element begins with its tag. -/
theorem exists_lines (unit : IndentUnit) (e : Element) :
    ∃ first more, Layout.lines unit e = first :: more ∧ first ≠ [] := by
  have flows := flows_pieces unit e.toNode 0
  have begins : ∃ p ps, pieces unit 0 e.toNode = p :: ps ∧ p.beginsLine = true := by
    rw [Element.toNode, pieces]
    split
    · exact ⟨_, [], rfl, rfl⟩
    · exact ⟨_, _, rfl, rfl⟩
  obtain ⟨p, ps, hps, begins⟩ := begins
  rw [Layout.lines, hps, layOut]
  rw [hps] at flows
  have own := flows p List.mem_cons_self
  cases head : p.lines.head? with
  | none => exact absurd (List.head?_eq_none_iff.1 head) own.some_line
  | some first =>
    simp only [Bool.false_and, Bool.false_eq_true, if_false]
    exact head_continueLines _ (own.begun begins first head) head _

/-- **The lines of an element flow as the element is laid out.**  So the text in a graft is the
    writing of a tree, and reading it is a case of reading what was written. -/
theorem flow_lines (m : Margin) (e : Element) :
    m.flow (Layout.lines m.unit e) = (m.laidElement 0 e).written := by
  have whole := laysOut m e.toNode 0 false []
  rw [laid_toNode, List.append_nil] at whole
  rw [Layout.lines, flow_layOut m (flows_pieces _ _ _), whole]
  simp [Margin.spread, Node.isLayout, Element.toNode, Element.written]

/-- **The text in the place of an element** is a break, the element as it is laid out, and another
    break when nothing stands behind it. -/
theorem replacement_eq (s : Surroundings) (e : Element) (isLast : Bool) :
    s.replacement e isLast = s.margin.breakAt 0 ++ (s.margin.laidElement 0 e).written
      ++ if isLast then s.terminator ++ s.base else [] := by
  obtain ⟨first, more, lines, some_text⟩ := exists_lines s.unit e
  have flowing := flow_lines s.margin e
  have first_line := s.margin.line_indent 0 some_text
  have line : s.line = s.margin.line := rfl
  have unit : s.margin.unit = s.unit := rfl
  -- the first line is the one at depth zero, behind a break like the others
  rw [IndentUnit.indent_zero, List.nil_append] at first_line
  rw [unit, lines, Margin.flow] at flowing
  rw [Surroundings.replacement, Surroundings.block, line, lines, List.flatMap_cons, first_line,
    List.append_assoc (s.margin.breakAt 0), flowing]

end XmlGraft.Graft
