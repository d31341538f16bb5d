/-
  Printed — cutting a print where the printer noted line ends gives the lines.

  An element is printed as one text, and the printer notes at which bytes its lines end.  The text
  is then cut at these bytes.  The layout in which everything else is proved makes lists of lines
  from the start.  Both give the same lines, and cutting never fails, since the noted bytes are
  between characters.  A line may hold line feeds of its own, in the value of an attribute for one;
  these are not noted.

  1. **Ends of lines** (`ends`): the bytes at which lines end when they stand one behind the other.
     Lines that are continued end where the lines end and where what continues them ends
     (`ends_continueLines`), and a text cut at the ends of its lines gives the lines (`cutAt_ends`).

  2. **Chunks and pieces** (`Prints`): each chunk prints the lines of a piece and notes where they
     end, one case for each kind of line feed.  So do the chunks of a tree (`prints_chunks`).

  3. **Lines** (`printedLines_eq`): an element can always be laid out, on the lines of the layout.

  The places are numbers, and the lines are texts; the link is the size of what was printed before.
  So each lemma carries the number of bytes at which its part of the print begins, and the induction
  is on the list of chunks, not on the print.  Where a line feed of a value stands in a line, it is
  inside, and no number is noted for it.
-/
import XmlGraft.Proofs.Graft.Comments

namespace XmlGraft.Layout

open Markup

/-! ## Ends of lines -/

/-- Lines in one text, a line feed between each two. -/
def joined (lines : List Text) : Text := Text.join ['\n'] lines

@[simp] theorem joined_singleton (line : Text) : joined [line] = line := by
  simp [joined, Text.join]

theorem joined_cons (first second : Text) (more : List Text) :
    joined (first :: second :: more) = first ++ '\n' :: joined (second :: more) := by
  rw [joined, joined, Text.join, Text.join, List.intercalate_cons_cons, List.append_assoc]
  rfl

/-- **The bytes at which lines end**, all but the last, where the first begins at byte `o`. -/
def ends (o : Nat) : List Text → List Nat
  | first :: second :: more => (o + first.size) :: ends (o + first.size + 1) (second :: more)
  | _ => []

theorem continueLines_ne_nil {lines : List Text} (some_line : lines ≠ []) (more : List Text) :
    continueLines lines more ≠ [] := by
  rcases lines with _ | ⟨first, _ | ⟨second, lines⟩⟩
  · exact absurd rfl some_line
  · cases more <;> exact List.cons_ne_nil _ _
  · rw [Graft.Margin.continueLines_cons]
    exact List.cons_ne_nil _ _

/-- **Lines that are continued** are, in one text, the lines and what continues them, with nothing
    between, for the first line of what comes goes on in the last one. -/
theorem joined_continueLines {lines more : List Text} (some_line : lines ≠ []) (some_more : more ≠ []) :
    joined (continueLines lines more) = joined lines ++ joined more := by
  induction lines with
  | nil => exact absurd rfl some_line
  | cons first lines ih =>
    cases lines with
    | nil =>
      rcases more with _ | ⟨next, _ | ⟨second, more⟩⟩
      · -- the last line and the next one become one
        exact absurd rfl some_more
      · simp [continueLines]
      · simp [continueLines, joined_cons]
    | cons second lines =>
      have rest := ih (List.cons_ne_nil _ _)
      rw [Graft.Margin.continueLines_cons]
      obtain ⟨next, others, shape⟩ :=
        List.exists_cons_of_ne_nil (continueLines_ne_nil (List.cons_ne_nil second lines) more)
      rw [shape] at rest ⊢
      rw [joined_cons, rest, joined_cons, List.append_assoc]
      rfl

/-- **Lines that are continued** end where the lines end, and then where what continues them does,
    counted from behind the text so far. -/
theorem ends_continueLines {lines more : List Text} (some_line : lines ≠ []) (some_more : more ≠ [])
    (o : Nat) :
    ends o (continueLines lines more) = ends o lines ++ ends (o + (joined lines).size) more := by
  induction lines generalizing o with
  | nil => exact absurd rfl some_line
  | cons first lines ih =>
    cases lines with
    | nil =>
      rcases more with _ | ⟨next, _ | ⟨second, more⟩⟩
      · exact absurd rfl some_more
      · simp [continueLines, ends]
      · simp [continueLines, ends, Nat.add_assoc]
    | cons second lines =>
      have rest := ih (List.cons_ne_nil _ _) (o + first.size + 1)
      -- where the lines behind the first begin, the first line and its line feed are passed
      have size : o + first.size + 1 + (joined (second :: lines)).size
          = o + (joined (first :: second :: lines)).size := by
        rw [joined_cons, Text.size_append, Text.size_cons]
        have feed : Char.utf8Size '\n' = 1 := rfl
        omega
      rw [size] at rest
      rw [Graft.Margin.continueLines_cons]
      obtain ⟨next, others, shape⟩ :=
        List.exists_cons_of_ne_nil (continueLines_ne_nil (List.cons_ne_nil second lines) more)
      rw [shape] at rest ⊢
      rw [ends, rest, ends, List.cons_append]

theorem cutOut_middle (before middle after : Text) :
    cutOut (before ++ middle ++ after) before.size (before ++ middle).size = .ok middle := by
  rw [cutOut, Text.size_append, Text.slice?_middle]

/-- **A text cut at the ends of its lines** gives the lines.  The bytes are counted from the
    beginning of the whole output, in which other lines may stand before. -/
theorem cutAt_ends (before : Text) {lines : List Text} (some_line : lines ≠ []) :
    cutAt (before ++ joined lines) before.size (ends before.size lines) = .ok lines := by
  induction lines generalizing before with
  | nil => exact absurd rfl some_line
  | cons first lines ih =>
    cases lines with
    | nil =>
      have last := cutOut_middle before first []
      rw [List.append_nil] at last
      simp only [ends, cutAt, joined_singleton, last]
      rfl
    | cons second lines =>
      -- the rest begins behind the line feed
      have rest := ih (before ++ first ++ ['\n']) (List.cons_ne_nil _ _)
      have own := cutOut_middle before first ('\n' :: joined (second :: lines))
      have start : (before ++ first ++ ['\n']).size = (before ++ first).size + 1 := Text.size_append _ _
      rw [start, List.append_assoc (before ++ first), List.singleton_append] at rest
      rw [ends, cutAt, joined_cons, ← List.append_assoc, ← Text.size_append, own, rest]
      rfl

/-! ## Chunks and pieces -/

/-- The lines that a piece adds where one may begin, or where none may. -/
def Piece.placed (unit : IndentUnit) (fresh : Bool) (p : Piece) : List Text :=
  if fresh && p.beginsLine then [] :: continueLines [unit.indent p.depth] p.lines else p.lines

/-- **A chunk prints a piece**: its text is that of the lines, and it notes where they end. -/
structure Prints (unit : IndentUnit) (c : Chunk) (p : Piece) : Prop where
  beginsLine : c.beginsLine = p.beginsLine
  some_line : p.lines ≠ []
  print : ∀ fresh, c.print unit fresh = joined (p.placed unit fresh)
  places : ∀ fresh o, c.breaks.places o (c.print unit fresh) = ends o (p.placed unit fresh)

theorem Piece.placed_ne_nil {p : Piece} (some_line : p.lines ≠ []) (unit : IndentUnit) (fresh : Bool) :
    p.placed unit fresh ≠ [] := by
  rw [placed]
  split
  · exact List.cons_ne_nil _ _
  · exact some_line

theorem layOut_ne_nil (unit : IndentUnit) (fresh : Bool) {ps : List Piece}
    (some_line : ∀ p ∈ ps, p.lines ≠ []) : layOut unit fresh ps ≠ [] := by
  cases ps with
  | nil => exact List.cons_ne_nil _ _
  | cons p ps =>
    rw [layOut]
    split
    · exact List.cons_ne_nil _ _
    · exact continueLines_ne_nil (some_line p List.mem_cons_self) _

/-- Lines laid out are those of the first piece, continued by the rest. -/
theorem layOut_cons {p : Piece} (some_line : p.lines ≠ []) (unit : IndentUnit) (fresh : Bool)
    {ps : List Piece} (some_rest : layOut unit p.beginsLine ps ≠ []) :
    layOut unit fresh (p :: ps)
      = continueLines (p.placed unit fresh) (layOut unit p.beginsLine ps) := by
  rw [layOut, Piece.placed]
  -- an empty line in front makes the first line of the piece begin behind a line feed
  split
  · obtain ⟨next, more, rest⟩ := List.exists_cons_of_ne_nil some_rest
    rcases lines : p.lines with _ | ⟨first, _ | ⟨second, others⟩⟩
    · exact absurd lines some_line
    · simp [rest, continueLines]
    · rw [rest]
      simp [continueLines]
  · rfl

/-- **The print of chunks** is the lines of their pieces in one text, with the ends of the lines.
    The induction carries the number of bytes printed so far. -/
theorem printed_eq {unit : IndentUnit} {cs : List Chunk} {ps : List Piece}
    (h : List.Forall₂ (Prints unit) cs ps) (fresh : Bool) (o : Nat) :
    printed unit fresh o cs = (joined (layOut unit fresh ps), ends o (layOut unit fresh ps)) := by
  induction h generalizing fresh o with
  | nil => simp [printed, layOut, ends]
  | @cons c p cs ps own more ih =>
    have some_line : ∀ q ∈ ps, q.lines ≠ [] := by
      intro q mem
      obtain ⟨_, -, prints⟩ := Graft.exists_of_mem_right more mem
      exact prints.some_line
    have some_rest := layOut_ne_nil unit p.beginsLine some_line
    have some_own := Piece.placed_ne_nil own.some_line unit fresh
    rw [printed, own.beginsLine, own.places]
    simp only [ih, own.print]
    rw [layOut_cons own.some_line unit fresh some_rest, joined_continueLines some_own some_rest,
      ends_continueLines some_own some_rest]

/-- Text and other markup are printed as they are. -/
theorem prints_inline (unit : IndentUnit) (depth : Nat) (written : Text) :
    Prints unit ⟨.none, depth, written⟩ ⟨false, depth, [written]⟩ := by
  refine ⟨rfl, List.cons_ne_nil _ _, fun fresh => ?_, fun fresh o => ?_⟩
  · simp [Chunk.print, Chunk.beginsLine, Piece.placed]
  · simp [Breaks.places, Piece.placed, ends]

/-- A tag ends the line before it, and no other: the line feeds of its attributes stay. -/
theorem prints_tag (unit : IndentUnit) (depth : Nat) (rest : Text) :
    Prints unit ⟨.leading, depth, '<' :: rest⟩ ⟨true, depth, ['<' :: rest]⟩ := by
  have begins : (⟨.leading, depth, '<' :: rest⟩ : Chunk).beginsLine = true := rfl
  refine ⟨begins, List.cons_ne_nil _ _, fun fresh => ?_, fun fresh o => ?_⟩ <;>
    cases fresh <;>
    simp [Chunk.print, begins, Piece.placed, continueLines, joined_cons, Breaks.places, ends]

/-- A line without a line feed holds no end of a line. -/
theorem breaksFrom_append {line : Text} (inside : '\n' ∉ line) (o : Nat) (more : Text) :
    LineIndex.breaksFrom o (line ++ more) = LineIndex.breaksFrom (o + line.size) more := by
  induction line generalizing o with
  | nil => rfl
  | cons c line ih =>
    obtain ⟨other, rest⟩ := List.ne_and_not_mem_of_not_mem_cons inside
    rw [List.cons_append, LineIndex.breaksFrom, if_neg (Ne.symm other), ih rest, Text.size_cons,
      Nat.add_assoc]

/-- **Where no line holds a line feed**, the line feeds of the text are the ends of the lines.  A
    tag may hold one in an attribute; for such a line the two lists differ. -/
theorem breaksFrom_joined {lines : List Text} (inside : ∀ line ∈ lines, '\n' ∉ line) (o : Nat) :
    LineIndex.breaksFrom o (joined lines) = ends o lines := by
  induction lines generalizing o with
  | nil => rfl
  | cons first lines ih =>
    rw [List.forall_mem_cons] at inside
    cases lines with
    | nil =>
      have last := breaksFrom_append inside.1 o []
      rw [List.append_nil] at last
      rw [joined_singleton, last]
      rfl
    | cons second lines =>
      rw [joined_cons, breaksFrom_append inside.1, LineIndex.breaksFrom, if_pos rfl, ends]
      exact congrArg _ (ih inside.2 _)

/-- Lines that are continued hold no more line feeds than both. -/
theorem not_mem_continueLines {lines more : List Text} (inside : ∀ line ∈ lines, '\n' ∉ line)
    (inside' : ∀ line ∈ more, '\n' ∉ line) : ∀ line ∈ continueLines lines more, '\n' ∉ line := by
  induction lines with
  | nil => exact inside'
  | cons first lines ih =>
    rw [List.forall_mem_cons] at inside
    cases lines with
    | nil =>
      cases more with
      | nil => exact List.forall_mem_singleton.2 inside.1
      | cons next more =>
        rw [List.forall_mem_cons] at inside'
        refine List.forall_mem_cons.2 ⟨?_, inside'.2⟩
        rw [List.mem_append]
        exact not_or.2 ⟨inside.1, inside'.1⟩
    | cons second lines =>
      rw [Graft.Margin.continueLines_cons]
      exact List.forall_mem_cons.2 ⟨inside.1, ih inside.2⟩

theorem not_mem_indent (unit : IndentUnit) (depth : Nat) : '\n' ∉ unit.indent depth := fun feed =>
  absurd (Graft.isBlank_indent unit depth _ feed) (by decide)

/-- The lines of a comment are printed one behind the other. -/
theorem prints_lines (unit : IndentUnit) (depth : Nat) {lines : List Text} (some_line : lines ≠ [])
    (inside : ∀ line ∈ lines, '\n' ∉ line) :
    Prints unit ⟨.all, depth, joined lines⟩ ⟨true, depth, lines⟩ := by
  have begins : (⟨.all, depth, joined lines⟩ : Chunk).beginsLine = true := rfl
  have print (fresh : Bool) : (⟨.all, depth, joined lines⟩ : Chunk).print unit fresh
      = joined ((⟨true, depth, lines⟩ : Piece).placed unit fresh) := by
    cases fresh with
    | false => rfl
    | true =>
      obtain ⟨next, more, shape⟩ := List.exists_cons_of_ne_nil some_line
      rw [Chunk.print, begins, Piece.placed, shape]
      cases more <;> simp [continueLines, joined_cons]
  refine ⟨rfl, some_line, print, fun fresh o => ?_⟩
  rw [print]
  refine breaksFrom_joined ?_ o
  cases fresh with
  | false => exact inside
  | true =>
    exact List.forall_mem_cons.2 ⟨List.not_mem_nil,
      not_mem_continueLines (List.forall_mem_singleton.2 (not_mem_indent unit depth)) inside⟩

/-- The lines of a comment hold no line feeds. -/
theorem not_mem_commentLines {indent : Text} (blank : ∀ c ∈ indent, Text.isBlank c = true)
    (body : Text) : ∀ line ∈ commentLines body indent, '\n' ∉ line := by
  have inside : ∀ line ∈ linesOf body, '\n' ∉ line := by
    intro line mem
    rw [Graft.linesOf_eq] at mem
    obtain ⟨piece, here, rfl⟩ := List.mem_map.1 mem
    exact fun feed =>
      (Text.of_mem_splitOn.2.2 piece here).1 ((Graft.trim_dropReturn piece).1.subset feed)
  rw [commentLines]
  split
  · exact List.forall_mem_nil _
  · next first more lines =>
    rw [lines, List.forall_mem_cons] at inside
    refine List.forall_mem_cons.2 ⟨inside.1, fun line mem => ?_⟩
    obtain ⟨pieces, whole, moved⟩ := Graft.exists_moveLines blank more fun line mem content =>
      Graft.sharedIndent_prefix mem content
    rw [whole] at mem
    obtain ⟨p, here, rfl⟩ := List.mem_map.1 mem
    obtain ⟨old, there, own⟩ := Graft.exists_of_mem_right moved here
    rw [List.mem_append]
    rintro (feed | feed)
    · exact absurd (own.blank _ feed) (by decide)
    · exact inside.2 old there (own.inside.subset feed)

theorem commentLines_ne_nil (body indent : Text) : commentLines body indent ≠ [] := by
  have some_line : linesOf body ≠ [] := by
    rw [Graft.linesOf_eq, Ne, List.map_eq_nil_iff]
    exact Text.of_mem_splitOn.1
  rw [commentLines]
  split
  · next nothing => exact absurd nothing some_line
  · exact List.cons_ne_nil _ _

/-- Nor do they between the delimiters. -/
theorem not_mem_commentPiece (unit : IndentUnit) (depth : Nat) (raw : Text) :
    ∀ line ∈ (commentPiece unit depth raw).lines, '\n' ∉ line :=
  not_mem_continueLines (List.forall_mem_singleton.2 (by decide)) (not_mem_continueLines
    (not_mem_commentLines (Graft.isBlank_indent unit depth) _) (List.forall_mem_singleton.2 (by decide)))

/-- **A comment is printed line by line**: all of its line feeds are noted, since none of its
    lines holds one. -/
theorem prints_comment (unit : IndentUnit) (depth : Nat) (raw : Text) :
    Prints unit ⟨.all, depth, ['<', '!', '-', '-'] ++ movedComment (commentBody raw) (unit.indent depth)
      ++ ['-', '-', '>']⟩ (commentPiece unit depth raw) := by
  have some_line := commentLines_ne_nil (commentBody raw) (unit.indent depth)
  have some_rest := continueLines_ne_nil some_line [['-', '-', '>']]
  have whole : ['<', '!', '-', '-'] ++ movedComment (commentBody raw) (unit.indent depth)
      ++ ['-', '-', '>'] = joined (continueLines [['<', '!', '-', '-']]
        (continueLines (commentLines (commentBody raw) (unit.indent depth)) [['-', '-', '>']])) := by
    rw [joined_continueLines (List.cons_ne_nil _ _) some_rest,
      joined_continueLines some_line (List.cons_ne_nil _ _), joined_singleton, joined_singleton,
      List.append_assoc]
    rfl
  rw [whole]
  exact prints_lines unit depth (continueLines_ne_nil (List.cons_ne_nil _ _) _)
    (not_mem_commentPiece unit depth raw)

/-- **The chunks of a tree print its pieces**, one by one, and at every depth.  By induction on
    the node, with one chunk for a tag, for a text and for a comment. -/
theorem prints_chunks (unit : IndentUnit) (n : Node) (depth : Nat) :
    List.Forall₂ (Prints unit) (chunks unit depth n) (pieces unit depth n) := by
  induction n using Node.induct generalizing depth with
  | element tag children ih =>
    -- the children, for which the induction is on the list
    have all : List.Forall₂ (Prints unit) (allChunks unit (depth + 1) children)
        (allPieces unit (depth + 1) children) := by
      induction children with
      | nil => exact .nil
      | cons n ns more =>
        rw [List.forall_mem_cons] at ih
        rw [allChunks, allPieces]
        exact List.rel_append (ih.1 (depth + 1)) (more ih.2)
    rw [chunks, pieces]
    split
    · exact .cons (prints_tag unit depth _) .nil
    · exact .cons (prints_tag unit depth _)
        (List.rel_append all (.cons (prints_tag unit depth _) .nil))
  | text raw =>
    rw [chunks, pieces]
    split
    · exact .nil
    · exact .cons (prints_inline unit depth _) .nil
  | comment raw => exact .cons (prints_comment unit depth raw) .nil
  | other markup => exact .cons (prints_inline unit depth _) .nil

/-! ## Lines -/

/-- **An element can always be laid out**: the print, cut where lines end, is its lines.  The cut
    fails inside a character only, and the ends of lines are between characters. -/
theorem printedLines_eq (unit : IndentUnit) (e : Element) :
    printedLines unit e = .ok (lines unit e) := by
  have print := printed_eq (prints_chunks unit e.toNode 0) false 0
  have some_line : layOut unit false (pieces unit 0 e.toNode) ≠ [] := by
    refine layOut_ne_nil unit false fun p mem => ?_
    obtain ⟨_, -, prints⟩ := Graft.exists_of_mem_right (prints_chunks unit e.toNode 0) mem
    exact prints.some_line
  have cut := cutAt_ends [] some_line
  rw [printedLines]
  simp only [print]
  exact cut

end XmlGraft.Layout
