/-
  Entries — where the lines of an element begin, and what they hold.

  An element is written by a writer that goes by what it has written: it counts the open tags, and
  begins a line with a tag or a comment unless text or other markup stands right before.  The
  printer has a count of its own, of the open elements, and notes where lines end.  That the two go
  together is what the lines of a rendered element rest on.

  1. **Parts** (`Part`, `parts`): what is written of an element, in order, at its depth.  A part is
     written in one go, so all that can be asked about lines is asked about parts.

  2. **The writer** (`output`): its own count of open tags is the depth of the parts (`Nested`).

  3. **Lines of parts** (`linesFrom`): one part goes on where the part before it ends
     (`linesFrom_append`); in one text they are what the writer writes (`written_eq`).  Whether a
     line may begin depends on the part right before and on nothing else (`freshAfter_eq`).

  4. **Places** (`cut_begin`, `cut_comment`, `only_cut`, `exists_whole`): where tags and comments
     begin lines, where the lines of comments end, that no other line ends, and that everything but
     a comment lies in one line.

  5. **Entries** (`LaidOut`, `printedLines_laidOut`): all of this of the lines that an element is
     printed on.
-/
import XmlGraft.Proofs.Layout.Cuts

namespace XmlGraft.Layout

open Markup

/-! ## Parts -/

/-- **Part** of an element: what is written in one go. -/
inductive Part
  /-- The start tag of an element with content. -/
  | opening (tag : Tag)
  | closing (tag : Tag)
  /-- The only tag of an element without content. -/
  | single (tag : Tag)
  | comment (raw : Text)
  | text (raw : Text)
  | other (markup : Text)
  deriving DecidableEq, Repr

namespace Part

/-- Does it stay on the line? -/
def isInline : Part → Bool
  | text _ | other _ => true
  | _ => false

def isComment : Part → Bool
  | comment _ => true
  | _ => false

/-- The attributes. -/
def attributes : Part → List Attribute
  | opening tag | single tag => tag.attributes
  | _ => []

/-- **What is written of a part** at a depth, where the lines of a comment are moved to. -/
def written (unit : IndentUnit) (depth : Nat) : Part → Text
  | opening tag => tag.generatedStart ++ ['>']
  | closing tag => ['<', '/'] ++ tag.name ++ ['>']
  | single tag => tag.generatedStart ++ ['/', '>']
  | comment raw =>
    ['<', '!', '-', '-'] ++ movedComment (commentBody raw) (unit.indent depth) ++ ['-', '-', '>']
  | text raw => Text.trim raw
  | other markup => markup

/-- How many tags are open where it is written. -/
def enter (count : Nat) : Part → Nat
  | closing _ => count - 1
  | _ => count

/-- How many tags are open behind it. -/
def leave (depth : Nat) : Part → Nat
  | opening _ => depth + 1
  | _ => depth

end Part

mutual

/-- **The parts of a node** at a depth, in order and with their depths; blank text is left out. -/
def parts (depth : Nat) : Node → List (Nat × Part)
  | .element tag children =>
    if children.all Node.isLayout then [(depth, .single tag)]
    else (depth, .opening tag) :: allParts (depth + 1) children ++ [(depth, .closing tag)]
  | .text raw => if Text.isSpaces raw then [] else [(depth, .text raw)]
  | .comment raw => [(depth, .comment raw)]
  | .other markup => [(depth, .other markup)]

/-- The parts of several nodes. -/
def allParts (depth : Nat) : List Node → List (Nat × Part)
  | [] => []
  | n :: ns => parts depth n ++ allParts depth ns

end

/-! ## The writer -/

/-- **What the writer writes** of parts, when it has counted so many open tags; `fresh` tells whether
    a tag or a comment begins a line. -/
def written (unit : IndentUnit) (count : Nat) (fresh : Bool) : List (Nat × Part) → Text
  | [] => []
  | (depth, p) :: more =>
    (if fresh && !p.isInline then '\n' :: unit.indent (p.enter count) else [])
      ++ p.written unit depth ++ written unit (p.leave (p.enter count)) (!p.isInline) more

/-- **The output of the writer.** -/
def output (unit : IndentUnit) (ps : List (Nat × Part)) : Text := written unit 0 false ps

/-- **The depths of parts are the open tags** before them, counted from `count`. -/
def Nested : Nat → List (Nat × Part) → Prop
  | _, [] => True
  | count, (depth, p) :: more => p.enter count = depth ∧ Nested (p.leave depth) more

/-- A front of nested parts is nested, for the count goes from the front. -/
theorem Nested.of_append {count : Nat} {before after : List (Nat × Part)}
    (h : Nested count (before ++ after)) : Nested count before := by
  induction before generalizing count with
  | nil => trivial
  | cons x before ih => exact ⟨h.1, ih h.2⟩

/-- **The parts of a node are nested**, and behind them as many tags are open as before.  By
    induction on the tree; inside, one on the children, which stand one tag deeper. -/
theorem nested_parts (n : Node) {depth : Nat} {more : List (Nat × Part)} (h : Nested depth more) :
    Nested depth (parts depth n ++ more) := by
  induction n using Node.induct generalizing depth more with
  | element tag children ih =>
    have all {rest : List (Nat × Part)} (nested : Nested (depth + 1) rest) :
        Nested (depth + 1) (allParts (depth + 1) children ++ rest) := by
      induction children with
      | nil => exact nested
      | cons n ns more =>
        rw [List.forall_mem_cons] at ih
        rw [allParts, List.append_assoc]
        exact ih.1 (more ih.2)
    rw [parts]
    split
    · exact ⟨rfl, h⟩
    · have closed : Nested (depth + 1) ((depth, .closing tag) :: more) := ⟨rfl, h⟩
      refine ⟨rfl, ?_⟩
      change Nested (depth + 1) ((allParts (depth + 1) children ++ [(depth, .closing tag)]) ++ more)
      rw [List.append_assoc]
      exact all closed
  | text raw =>
    rw [parts]
    split
    · exact h
    · exact ⟨rfl, h⟩
  | comment raw => exact ⟨rfl, h⟩
  | other markup => exact ⟨rfl, h⟩

/-! ## Lines of parts -/

/-- The piece that a part is laid out as. -/
def Part.piece (unit : IndentUnit) : Nat × Part → Piece
  | (depth, .comment raw) => commentPiece unit depth raw
  | (depth, p) => ⟨!p.isInline, depth, [p.written unit depth]⟩

/-- The printer's pieces of a node are those of its parts. -/
theorem pieces_eq (unit : IndentUnit) (n : Node) (depth : Nat) :
    pieces unit depth n = (parts depth n).map (Part.piece unit) := by
  induction n using Node.induct generalizing depth with
  | element tag children ih =>
    have all : allPieces unit (depth + 1) children
        = (allParts (depth + 1) children).map (Part.piece unit) := by
      induction children with
      | nil => rfl
      | cons n ns more =>
        rw [List.forall_mem_cons] at ih
        rw [allPieces, allParts, List.map_append, ih.1, more ih.2]
    rw [pieces, parts]
    split
    · rfl
    · rw [all, List.map_append, List.map_cons]
      rfl
  | text raw =>
    rw [pieces, parts]
    split <;> rfl
  | comment | other => rfl

/-- **A piece holds a part**: at its depth, and in one text what is written of it. -/
structure Part.Holds (unit : IndentUnit) (depth : Nat) (p : Part) (piece : Piece) : Prop where
  beginsLine : piece.beginsLine = !p.isInline
  inDepth : piece.depth = depth
  some_line : piece.lines ≠ []
  whole : joined piece.lines = p.written unit depth

/-- The piece of a part holds it; of all parts only a comment may have several lines. -/
theorem holds_piece (unit : IndentUnit) (depth : Nat) (p : Part) :
    p.Holds unit depth (Part.piece unit (depth, p)) := by
  cases p with
  | comment raw =>
    have prints := prints_comment unit depth raw
    exact ⟨rfl, rfl, prints.some_line, (prints.print false).symm⟩
  | opening | closing | single | text | other =>
    exact ⟨rfl, rfl, List.cons_ne_nil _ _, joined_singleton _⟩

/-- The lines that a part adds. -/
def addedLines (unit : IndentUnit) (fresh : Bool) (x : Nat × Part) : List Text :=
  (Part.piece unit x).placed unit fresh

/-- **The lines of parts**; `fresh` tells whether a tag or a comment begins a line. -/
def linesFrom (unit : IndentUnit) (fresh : Bool) (ps : List (Nat × Part)) : List Text :=
  layOut unit fresh (ps.map (Part.piece unit))

/-- Does a tag or a comment behind these parts begin a line? -/
def freshAfter (fresh : Bool) : List (Nat × Part) → Bool
  | [] => fresh
  | x :: more => freshAfter (!x.2.isInline) more

/-- Whether a line may begin behind parts is decided by the last of them. -/
theorem freshAfter_eq (fresh : Bool) (ps : List (Nat × Part)) :
    freshAfter fresh ps = (ps.getLast?.map (!·.2.isInline)).getD fresh := by
  induction ps generalizing fresh with
  | nil => rfl
  | cons x ps ih =>
    rw [freshAfter, ih]
    cases ps with
    | nil => rfl
    | cons y ps => rw [List.getLast?_cons_cons]; simp [List.getLast?_cons]

section

variable {unit : IndentUnit} {fresh : Bool} {ps before after : List (Nat × Part)} {x : Nat × Part}
  {front : Text} {below : List Text}

theorem linesFrom_ne_nil : linesFrom unit fresh ps ≠ [] := by
  refine layOut_ne_nil unit fresh fun p mem => ?_
  obtain ⟨⟨depth, p⟩, -, rfl⟩ := List.mem_map.1 mem
  exact (holds_piece unit depth p).some_line

theorem exists_linesFrom (unit : IndentUnit) (fresh : Bool) (ps : List (Nat × Part)) :
    ∃ next more, linesFrom unit fresh ps = next :: more :=
  List.exists_cons_of_ne_nil linesFrom_ne_nil

theorem linesFrom_nil : linesFrom unit fresh [] = [[]] := rfl

theorem addedLines_ne_nil : addedLines unit fresh x ≠ [] :=
  Piece.placed_ne_nil (holds_piece unit x.1 x.2).some_line unit fresh

/-- **Where a part ends, the next one goes on.** -/
theorem linesFrom_cons : linesFrom unit fresh (x :: ps)
    = continueLines (addedLines unit fresh x) (linesFrom unit (!x.2.isInline) ps) := by
  have own := holds_piece unit x.1 x.2
  have some_rest : layOut unit (Part.piece unit x).beginsLine (ps.map (Part.piece unit)) ≠ [] := by
    rw [own.beginsLine]
    exact linesFrom_ne_nil
  rw [linesFrom, List.map_cons, layOut_cons own.some_line unit fresh some_rest, own.beginsLine]
  rfl

/-- The lines of parts in two lists: the second list goes on where the first one ends. -/
theorem linesFrom_append : linesFrom unit fresh (before ++ after)
    = continueLines (linesFrom unit fresh before) (linesFrom unit (freshAfter fresh before) after) := by
  induction before generalizing fresh with
  | nil =>
    obtain ⟨first, more, shape⟩ := exists_linesFrom unit fresh after
    rw [List.nil_append, freshAfter, shape]
    rfl
  | cons x before ih =>
    rw [List.cons_append, linesFrom_cons, ih, linesFrom_cons, continueLines_assoc, freshAfter]

/-- What stands in front of a part: the end of a line and the indentation, if it begins a line. -/
def lead (unit : IndentUnit) (fresh : Bool) (x : Nat × Part) : Text :=
  if fresh && !x.2.isInline then '\n' :: unit.indent x.1 else []

/-- In one text, the lines of a part are what stands in front of it and what is written of it. -/
theorem joined_addedLines :
    joined (addedLines unit fresh x) = lead unit fresh x ++ x.2.written unit x.1 := by
  obtain ⟨begins, depth, some_line, whole⟩ := holds_piece unit x.1 x.2
  rw [addedLines, Piece.placed, lead, begins, depth]
  split
  · obtain ⟨first, more, shape⟩ := List.exists_cons_of_ne_nil
      (continueLines_ne_nil (List.cons_ne_nil (unit.indent x.1) []) (Part.piece unit x).lines)
    have own := joined_continueLines (List.cons_ne_nil (unit.indent x.1) []) some_line
    rw [joined_singleton, whole] at own
    rw [shape] at own ⊢
    rw [joined_cons, own]
    rfl
  · rw [whole]
    rfl

/-- **In one text the lines are what the writer writes**, when its count is the depth. -/
theorem written_eq {count : Nat} (nested : Nested count ps) :
    written unit count fresh ps = joined (linesFrom unit fresh ps) := by
  induction ps generalizing count fresh with
  | nil => rfl
  | cons x ps ih =>
    obtain ⟨depth, p⟩ := x
    -- the depth of the part is the count of the writer, so that both indent it alike
    obtain ⟨rfl, rest⟩ := nested
    rw [written, ih rest, linesFrom_cons, joined_continueLines addedLines_ne_nil linesFrom_ne_nil,
      joined_addedLines]
    rfl

/-- Lines with one more part go on where the others end. -/
theorem joined_concat : joined (linesFrom unit fresh (before ++ [x]))
    = joined (linesFrom unit fresh before)
      ++ (lead unit (freshAfter fresh before) x ++ x.2.written unit x.1) := by
  rw [linesFrom_append, joined_continueLines linesFrom_ne_nil linesFrom_ne_nil, linesFrom_cons,
    linesFrom_nil, continueLines_nil_line addedLines_ne_nil, joined_addedLines]

/-! ## Places -/

/-- **The lines that a part adds** end before it, if it begins a line, and where its own lines do. -/
theorem cut_addedLines : Cut (addedLines unit fresh x) front below ↔
    (fresh = true ∧ x.2.isInline = false ∧ front = [] ∧
        below = continueLines [unit.indent x.1] (Part.piece unit x).lines) ∨
      ∃ own, Cut (Part.piece unit x).lines own below ∧ front = lead unit fresh x ++ own := by
  obtain ⟨begins, depth, some_line, -⟩ := holds_piece unit x.1 x.2
  rw [addedLines, Piece.placed, lead, begins, depth]
  -- a part that begins a line has a line end in front of it, and its own ones behind the
  -- indentation
  by_cases breaks : (fresh && !x.2.isInline) = true
  · have split := breaks
    rw [Bool.and_eq_true, Bool.not_eq_true'] at split
    rw [if_pos breaks, if_pos breaks, cut_cons,
      exists_congr fun front' => and_congr_left' (cut_continueLines (List.cons_ne_nil _ _) some_line)]
    constructor
    · rintro (⟨-, rfl, rfl⟩ | ⟨front', ⟨_, inside, -⟩ | ⟨own, cut, rfl⟩, rfl⟩)
      · exact .inl ⟨split.1, split.2, rfl, rfl⟩
      · exact absurd inside not_cut_singleton
      · exact .inr ⟨own, cut, by rw [joined_singleton]; rfl⟩
    · rintro (⟨-, -, rfl, rfl⟩ | ⟨own, cut, rfl⟩)
      · exact .inl ⟨continueLines_ne_nil (List.cons_ne_nil _ _) _, rfl, rfl⟩
      · exact .inr ⟨_, .inr ⟨own, cut, rfl⟩, by rw [joined_singleton]; rfl⟩
  · rw [if_neg breaks, if_neg breaks]
    constructor
    · exact fun cut => .inr ⟨front, cut, rfl⟩
    · rintro (⟨mayBegin, own, -⟩ | ⟨own, cut, rfl⟩)
      · rw [mayBegin, own] at breaks
        exact absurd rfl breaks
      · exact cut

/-- Tags and comments are written from `<` on, and so is the first of their lines. -/
theorem exists_lines (unit : IndentUnit) (own : x.2.isInline = false) :
    ∃ first more, (Part.piece unit x).lines = first :: more ∧ ['<'] <+: first := by
  obtain ⟨depth, p⟩ := x
  cases p with
  | opening | closing | single => exact ⟨_, [], rfl, ⟨_, rfl⟩⟩
  | comment raw =>
    obtain ⟨first, more, shape, grows⟩ := exists_continueLines ['<', '!', '-', '-'] []
      (continueLines (commentLines (commentBody raw) (unit.indent depth)) [['-', '-', '>']])
    exact ⟨first, more, shape, List.IsPrefix.trans ⟨_, rfl⟩ grows⟩
  | text | other => cases own

/-- **A tag or a comment begins a line** where one may begin: behind the indentation of its depth.
    -/
theorem cut_begin (mayBegin : freshAfter fresh before = true) (own : x.2.isInline = false) :
    ∃ line more, Cut (linesFrom unit fresh (before ++ x :: after)) (joined (linesFrom unit fresh before))
        (line :: more) ∧ unit.indent x.1 ++ ['<'] <+: line := by
  obtain ⟨first, others, shape, begins⟩ := exists_lines unit own
  have added : Cut (addedLines unit true x) [] ((unit.indent x.1 ++ first) :: others) := by
    refine cut_addedLines.2 (.inl ⟨rfl, own, rfl, ?_⟩)
    rw [shape]
    rfl
  obtain ⟨line, more, goes_on, grows⟩ :=
    exists_continueLines (unit.indent x.1 ++ first) others (linesFrom unit (!x.2.isInline) after)
  refine ⟨line, more, ?_, ((List.prefix_append_right_inj _).2 begins).trans grows⟩
  rw [linesFrom_append, mayBegin, linesFrom_cons]
  refine (cut_continueLines linesFrom_ne_nil (continueLines_ne_nil addedLines_ne_nil _)).2
    (.inr ⟨[], ?_, (List.append_nil _).symm⟩)
  exact (cut_continueLines addedLines_ne_nil linesFrom_ne_nil).2 (.inl ⟨_, added, goes_on.symm⟩)

/-- **No line ends before a tag or a comment** where none may begin: `<` stands there. -/
theorem not_cut_begin (goesOn : freshAfter fresh before = false) (own : x.2.isInline = false) :
    ¬Cut (linesFrom unit fresh (before ++ x :: after)) (joined (linesFrom unit fresh before)) below := by
  intro cut
  obtain ⟨first, more, shape, rest, rfl⟩ := exists_lines unit own
  have whole := cut.joined
  have own_text := (holds_piece unit x.1 x.2).whole
  rw [linesFrom_append, joined_continueLines linesFrom_ne_nil linesFrom_ne_nil, goesOn, linesFrom_cons,
    joined_continueLines addedLines_ne_nil linesFrom_ne_nil, joined_addedLines, lead, ← own_text, shape,
    List.append_cancel_left_eq] at whole
  -- at a cut there would be a line feed, where the part begins with its bracket
  cases more with
  | nil => rw [joined_singleton] at whole; cases whole
  | cons => rw [joined_cons] at whole; cases whole

/-- **The line feeds of a comment end lines**, and the next one is empty or behind the indentation of
    the comment. -/
theorem cut_comment {depth : Nat} {raw s t : Text}
    (written : (Part.comment raw).written unit depth = s ++ '\n' :: t) :
    ∃ line more, Cut (linesFrom unit fresh (before ++ (depth, .comment raw) :: after))
        (joined (linesFrom unit fresh before)
          ++ (lead unit (freshAfter fresh before) (depth, .comment raw) ++ s)) (line :: more) ∧
      (line = [] ∨ unit.indent depth <+: line) := by
  have whole := (holds_piece unit depth (.comment raw)).whole
  rw [written] at whole
  obtain ⟨below, cut, -⟩ := exists_cut (not_mem_commentPiece unit depth raw) whole
  -- the lines behind the cut are some of the comment's own, which are margined
  have margined : Margined (unit.indent depth) below := by
    obtain ⟨first, more, shape, margined⟩ := margined_commentPiece unit depth raw
    obtain ⟨-, above, some_above, lines, -⟩ := cut
    obtain ⟨_, above, rfl⟩ := List.exists_cons_of_ne_nil some_above
    rw [shape] at lines
    obtain ⟨-, rfl⟩ := List.cons.inj lines
    exact margined.of_append
  obtain ⟨last, others, rfl⟩ := List.exists_cons_of_ne_nil cut.1
  obtain ⟨next, rest, behind⟩ := exists_linesFrom unit true after
  obtain ⟨line, more, goes_on, own⟩ := margined.exists_continueLines next rest
  refine ⟨line, more, ?_, own⟩
  rw [linesFrom_append, linesFrom_cons]
  refine (cut_continueLines linesFrom_ne_nil (continueLines_ne_nil addedLines_ne_nil _)).2
    (.inr ⟨_, ?_, rfl⟩)
  refine (cut_continueLines addedLines_ne_nil linesFrom_ne_nil).2
    (.inl ⟨last :: others, cut_addedLines.2 (.inr ⟨s, cut, rfl⟩), ?_⟩)
  exact (behind ▸ goes_on).symm

/-- **No other line ends**: each does before a tag or a comment that begins one, or in a comment.
    By induction on the parts: a cut lies in the lines of the first part or behind them. -/
theorem only_cut (cut : Cut (linesFrom unit fresh ps) front below) :
    (∃ before x after, ps = before ++ x :: after ∧ x.2.isInline = false ∧
        freshAfter fresh before = true ∧ front = joined (linesFrom unit fresh before)) ∨
      ∃ before depth raw after s t, ps = before ++ (depth, .comment raw) :: after ∧
        (Part.comment raw).written unit depth = s ++ '\n' :: t ∧
        front = joined (linesFrom unit fresh before)
          ++ (lead unit (freshAfter fresh before) (depth, .comment raw) ++ s) := by
  induction ps generalizing fresh front with
  | nil => exact absurd cut not_cut_singleton
  | cons x ps ih =>
    rw [linesFrom_cons, cut_continueLines addedLines_ne_nil linesFrom_ne_nil] at cut
    have longer (before : List (Nat × Part)) : joined (linesFrom unit fresh (x :: before))
        = joined (addedLines unit fresh x) ++ joined (linesFrom unit (!x.2.isInline) before) := by
      rw [linesFrom_cons, joined_continueLines addedLines_ne_nil linesFrom_ne_nil]
    rcases cut with ⟨below, added, -⟩ | ⟨front, behind, rfl⟩
    · rcases cut_addedLines.1 added with ⟨mayBegin, own, rfl, -⟩ | ⟨s, inside, rfl⟩
      · exact .inl ⟨[], x, ps, rfl, own, mayBegin, rfl⟩
      · -- of all parts only a comment has more lines than one
        obtain ⟨depth, p⟩ := x
        cases p with
        | comment raw =>
          have whole := inside.joined
          rw [(holds_piece unit depth (.comment raw)).whole] at whole
          exact .inr ⟨[], depth, raw, ps, s, _, rfl, whole, rfl⟩
        | opening | closing | single | text | other => exact absurd inside not_cut_singleton
    · rcases ih behind with ⟨before, y, after, rfl, own, mayBegin, rfl⟩ |
        ⟨before, depth, raw, after, s, t, rfl, whole, rfl⟩
      · exact .inl ⟨x :: before, y, after, rfl, own, mayBegin, (longer before).symm⟩
      · refine .inr ⟨x :: before, depth, raw, after, s, t, rfl, whole, ?_⟩
        rw [longer, List.append_assoc]
        rfl

/-- **Everything but a comment lies in one line**, at its place. -/
theorem exists_whole (unit : IndentUnit) (fresh : Bool) (before after : List (Nat × Part))
    (x : Nat × Part) (own : x.2.isComment = false) :
    ∃ above head tail below, linesFrom unit fresh (before ++ x :: after)
        = above ++ (head ++ x.2.written unit x.1 ++ tail) :: below ∧
      joined (above ++ [head ++ x.2.written unit x.1]) = joined (linesFrom unit fresh (before ++ [x])) := by
  have single : (Part.piece unit x).lines = [x.2.written unit x.1] := by
    obtain ⟨depth, p⟩ := x
    cases p with
    | comment => cases own
    | opening | closing | single | text | other => rfl
  -- its one line is the last of those that it adds
  have added : ∃ above head, addedLines unit (freshAfter fresh before) x
      = above ++ [head ++ x.2.written unit x.1] := by
    rw [addedLines, Piece.placed, single]
    split
    · exact ⟨[[]], _, rfl⟩
    · exact ⟨[], [], rfl⟩
  obtain ⟨above, head, added⟩ := added
  have some_line : linesFrom unit fresh before ≠ [] := linesFrom_ne_nil
  obtain ⟨above, head, so_far⟩ :=
    exists_concat_continueLines some_line above head (x.2.written unit x.1)
  rw [← added] at so_far
  obtain ⟨next, below, behind⟩ := exists_linesFrom unit (!x.2.isInline) after
  refine ⟨above, head, next, below, ?_, ?_⟩
  · rw [linesFrom_append, linesFrom_cons, ← continueLines_assoc, so_far, behind, continueLines_concat]
  · rw [linesFrom_append, linesFrom_cons, linesFrom_nil, continueLines_nil_line addedLines_ne_nil, so_far]

end

/-! ## Entries -/

/-- **Entries that parts are laid out on.** -/
structure LaidOut (unit : IndentUnit) (ps : List (Nat × Part)) (entries : List Text) : Prop where
  /-- One behind the other, they are what the writer writes. -/
  output : joined entries = output unit ps
  /-- A tag or a comment begins an entry, behind the indentation of its depth, exactly if there is a
      part before it that does not stay on the line. -/
  begins : ∀ before depth p after, ps = before ++ (depth, p) :: after → p.isInline = false →
    if before.getLast?.any (!·.2.isInline) then
      ∃ line more, Cut entries (Layout.output unit before) (line :: more) ∧
        unit.indent depth ++ ['<'] <+: line
    else ∀ below, ¬Cut entries (Layout.output unit before) below
  /-- Each line feed of a comment ends an entry, and the next one is empty or behind the indentation
      of the comment. -/
  continued : ∀ before depth raw after s t front, ps = before ++ (depth, .comment raw) :: after →
    (Part.comment raw).written unit depth = s ++ '\n' :: t →
    Layout.output unit (before ++ [(depth, .comment raw)]) = front ++ '\n' :: t →
    ∃ line more, Cut entries front (line :: more) ∧ (line = [] ∨ unit.indent depth <+: line)
  /-- No other entry ends. -/
  only : ∀ front below, Cut entries front below →
    (∃ before depth p after, ps = before ++ (depth, p) :: after ∧ p.isInline = false ∧
        before.getLast?.any (!·.2.isInline) = true ∧ front = Layout.output unit before) ∨
      ∃ before depth raw after s t, ps = before ++ (depth, .comment raw) :: after ∧
        (Part.comment raw).written unit depth = s ++ '\n' :: t ∧
        Layout.output unit (before ++ [(depth, .comment raw)]) = front ++ '\n' :: t
  /-- Everything but a comment lies in one entry, at its place. -/
  whole : ∀ before depth p after, ps = before ++ (depth, p) :: after → p.isComment = false →
    ∃ above head tail below, entries = above ++ (head ++ p.written unit depth ++ tail) :: below ∧
      joined (above ++ [head ++ p.written unit depth]) = Layout.output unit (before ++ [(depth, p)])
  /-- So does each value of a tag, escaped; it stands in what is written of the tag. -/
  values : ∀ before depth p after a, ps = before ++ (depth, p) :: after → a ∈ p.attributes →
    ∃ above head tail below,
      entries = above ++ (head ++ escapeValue a.value ++ tail) :: below ∧
      Layout.output unit before <+: joined (above ++ [head]) ∧
      joined (above ++ [head ++ escapeValue a.value])
        <+: Layout.output unit (before ++ [(depth, p)])

/-- What is written of a tag holds its values, escaped. -/
theorem Part.exists_written {p : Part} {a : Attribute} (mem : a ∈ p.attributes) (unit : IndentUnit)
    (depth : Nat) : p.isComment = false ∧ ∃ s t, p.written unit depth = s ++ escapeValue a.value ++ t := by
  have start (tag : Tag) (mem : a ∈ tag.attributes) :
      ∃ s t, tag.generatedStart = s ++ escapeValue a.value ++ t := by
    obtain ⟨earlier, later, shape⟩ := List.append_of_mem mem
    rw [Tag.generatedStart, shape, List.flatMap_append, List.flatMap_cons, Attribute.written]
    refine ⟨'<' :: tag.name ++ earlier.flatMap (' ' :: ·.written) ++ ' ' :: a.name ++ ['=', '"'],
      '"' :: later.flatMap (' ' :: ·.written), ?_⟩
    simp only [List.append_assoc, List.cons_append, List.nil_append]
  cases p with
  | opening tag | single tag =>
    obtain ⟨s, t, whole⟩ := start tag mem
    exact ⟨rfl, s, _, by rw [Part.written, whole, List.append_assoc]⟩
  | closing | comment | text | other => cases mem

/-- **Nested parts are laid out on their lines**, each clause by the lemma on its places. -/
theorem laidOut_linesFrom {unit : IndentUnit} {ps : List (Nat × Part)} (nested : Nested 0 ps) :
    LaidOut unit ps (linesFrom unit false ps) := by
  -- what the writer has written before a part, and behind it
  have so_far {before after : List (Nat × Part)} (shape : ps = before ++ after) :
      output unit before = joined (linesFrom unit false before) := by
    rw [shape] at nested
    exact written_eq nested.of_append
  have behind {before after : List (Nat × Part)} {x : Nat × Part} (shape : ps = before ++ x :: after) :
      output unit (before ++ [x]) = output unit before
        ++ (lead unit (freshAfter false before) x ++ x.2.written unit x.1) := by
    rw [so_far shape, ← joined_concat]
    have one_more : ps = (before ++ [x]) ++ after := by rw [shape, List.append_assoc]; rfl
    exact so_far one_more
  have mayBegin (before : List (Nat × Part)) :
      freshAfter false before = before.getLast?.any (!·.2.isInline) := by
    rw [freshAfter_eq]
    cases before.getLast? <;> rfl
  refine ⟨(written_eq nested).symm, ?begins, ?continued, ?only, ?whole, ?values⟩
  case begins =>
    intro before depth p after shape own
    rw [so_far shape, ← mayBegin, shape]
    split
    · next begins => exact cut_begin begins own
    · next goesOn => exact fun below => not_cut_begin (Bool.eq_false_iff.2 goesOn) own
  case continued =>
    intro before depth raw after s t front shape written place
    rw [behind shape, written, ← List.append_assoc, ← List.append_assoc] at place
    obtain rfl := List.append_cancel_right place
    rw [so_far shape, shape, List.append_assoc]
    exact cut_comment written
  case only =>
    intro front below cut
    rcases only_cut cut with ⟨before, x, after, shape, own, begins, rfl⟩ |
      ⟨before, depth, raw, after, s, t, shape, written, rfl⟩
    · exact .inl ⟨before, x.1, x.2, after, shape, own, by rw [← mayBegin, begins], (so_far shape).symm⟩
    · refine .inr ⟨before, depth, raw, after, s, t, shape, written, ?_⟩
      rw [behind shape, written, so_far shape, List.append_assoc, List.append_assoc]
  case whole =>
    intro before depth p after shape own
    obtain ⟨above, head, tail, below, entries, place⟩ :=
      exists_whole unit false before after (depth, p) own
    refine ⟨above, head, tail, below, shape ▸ entries, ?_⟩
    rw [place, behind shape, so_far shape, joined_concat]
  case values =>
    intro before depth p after a shape mem
    obtain ⟨own, s, t, written⟩ := Part.exists_written mem unit depth
    obtain ⟨above, head, tail, below, entries, place⟩ :=
      exists_whole unit false before after (depth, p) own
    rw [joined_concat, ← so_far shape, joined_concat_append, ← List.append_assoc] at place
    have head_place := List.append_cancel_right place
    refine ⟨above, head ++ s, t ++ tail, below, ?_, ?_, ?_⟩
    · rw [shape, entries, written]
      simp only [List.append_assoc]
    · rw [joined_concat_append, head_place, List.append_assoc]
      exact List.prefix_append _ _
    · rw [behind shape, joined_concat_append, joined_concat_append, head_place, written]
      simp only [List.append_assoc, List.prefix_append_right_inj, List.prefix_append]

/-- **The lines of an element are laid out as its parts are**: there always are such lines, cut from
    a print that is what the writer writes. -/
theorem printedLines_laidOut (unit : IndentUnit) (e : Element) :
    ∃ entries, printedLines unit e = .ok entries ∧
      (printed unit false 0 (chunks unit 0 e.toNode)).1 = output unit (parts 0 e.toNode) ∧
      LaidOut unit (parts 0 e.toNode) entries := by
  have nested : Nested 0 (parts 0 e.toNode) := by
    have closed : Nested 0 [] := trivial
    have whole := nested_parts e.toNode closed
    rwa [List.append_nil] at whole
  have laid : layOut unit false (pieces unit 0 e.toNode) = linesFrom unit false (parts 0 e.toNode) := by
    rw [pieces_eq]
    rfl
  refine ⟨_, printedLines_eq unit e, ?_, ?_⟩
  · rw [printed_eq (prints_chunks unit e.toNode 0), laid]
    exact (written_eq nested).symm
  · rw [lines, laid]
    exact laidOut_linesFrom nested

/-- A text that holds a line feed stays in one entry; a comment does not. -/
example :
    let tag (name : Text) : Tag := ⟨name, [], none, true, true⟩
    let value : Node := .element (tag ['v']) [.text ['1', '\n', '2']]
    let remark : Node := .ofComment ['a', '\n', 'b']
    printedLines ⟨.space, 2⟩ ⟨tag ['c'], [value, remark]⟩
      = .ok (["<c>", "  <v>1\n2</v>", "  <!--a", "  b-->", "</c>"].map (·.toList)) := by
  rfl

end XmlGraft.Layout
