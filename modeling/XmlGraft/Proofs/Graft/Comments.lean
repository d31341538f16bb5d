/-
  Comments — what moving the lines of a comment keeps.

  A comment that is laid out at another depth is moved with its lines.  The indentation that its
  lines share is taken off, and that of the new depth is put on.  What it says must not change by
  this, and it must still be one comment.  Both are questions about where the body is cut: into
  lines, and at the delimiter that ends it.

  1. **Margins** (`Margin.Proper`): line ends and indentation are spaces, and none of their
     characters is part of a delimiter or of markup.

  2. **Moved lines** (`exists_moveLines`): behind each line end stand blanks and the rest of the
     line as it was.  A line of spaces loses all of them, and so counts neither for the shared
     indentation nor in what a comment says.

  3. **The body** (`map_trim_movedBody`): each line of it, trimmed, is what it was.

  4. **The end** (`endsFirst_movedBody`): the body still holds no delimiter.  A margin separates
     each line from the one before, so a delimiter would have to stand in one line; and of each line
     only a part is left.

  The lines of a body are what stands between its line feeds.  A carriage return at the end of a
  line goes with the feed, and a margin that has returns brings one back; a return inside a line is
  a character of the line, which trimming takes for a space.
-/
import XmlGraft.Proofs.Graft.Laid
import XmlGraft.Proofs.Text.Splitting

namespace XmlGraft.Graft

open Markup Layout Text

/-! ## Margins -/

/-- **A proper margin**: lines end as lines do, and begin with blanks. -/
structure Margin.Proper (m : Margin) : Prop where
  terminator : m.terminator = ['\n'] ∨ m.terminator = ['\r', '\n']
  lead : ∀ c ∈ m.lead, isBlank c = true

/-- A character that layout is made of. -/
def IsFiller (c : Char) : Prop := c = '\n' ∨ c = '\r' ∨ isBlank c = true

theorem IsFiller.isSpace {c : Char} (h : IsFiller c) : isSpace c = true := by
  rcases h with rfl | rfl | blank
  · rfl
  · rfl
  · exact isSpace_of_isBlank blank

/-- **Filler is no markup**, and no part of a delimiter, so it can come between any two pieces of
    text without opening or closing something. -/
theorem IsFiller.not_mem {c : Char} (h : IsFiller c) : c ∉ ['<', '>', '&', '-'] := by
  intro mark
  have := h.isSpace
  revert mark
  simp only [List.mem_cons, List.not_mem_nil, or_false]
  rintro (rfl | rfl | rfl | rfl) <;> exact absurd this (by decide)

theorem isBlank_indent (unit : IndentUnit) (depth : Nat) :
    ∀ c ∈ unit.indent depth, isBlank c = true := by
  intro c hc
  rw [IndentUnit.indent, List.mem_replicate] at hc
  rw [hc.2]
  cases unit.filler <;> rfl

namespace Margin.Proper

theorem isFiller_terminator {m : Margin} (h : m.Proper) : ∀ c ∈ m.terminator, IsFiller c := by
  intro c hc
  rcases h.terminator with e | e <;> rw [e] at hc
  · rw [List.mem_singleton] at hc
    exact .inl hc
  · rcases List.mem_cons.1 hc with rfl | hc
    · exact .inr (.inl rfl)
    · rw [List.mem_singleton] at hc
      exact .inl hc

/-- There is always a line end between two lines, so margins separate. -/
theorem ne_nil {m : Margin} (h : m.Proper) : m.terminator ≠ [] := by
  rcases h.terminator with e | e <;> rw [e] <;> exact List.cons_ne_nil _ _

/-- A line end is a line feed, with or without a carriage return. -/
theorem exists_front {m : Margin} (h : m.Proper) :
    ∃ front, m.terminator = front ++ ['\n'] ∧ '\n' ∉ front ∧ isSpaces front = true := by
  rcases h.terminator with e | e
  · exact ⟨[], e, List.not_mem_nil, rfl⟩
  · exact ⟨['\r'], e, by decide, rfl⟩

/-- What a line begins with is blank. -/
theorem isBlank_indent {m : Margin} (h : m.Proper) (depth : Nat) :
    ∀ c ∈ m.indent depth, isBlank c = true := by
  intro c hc
  rcases List.mem_append.1 hc with hc | hc
  · exact h.lead c hc
  · exact Graft.isBlank_indent _ _ c hc

/-- So is a whole break, the line end with the indentation behind it. -/
theorem isFiller_breakAt {m : Margin} (h : m.Proper) (depth : Nat) :
    ∀ c ∈ m.breakAt depth, IsFiller c := by
  intro c hc
  rcases List.mem_append.1 hc with hc | hc
  · exact h.isFiller_terminator c hc
  · exact .inr (.inr (h.isBlank_indent depth c hc))

end Margin.Proper

/-! ## Moved lines -/

/-- What two texts have in common at the front is the front of both. -/
theorem commonStart_prefix (a b : Text) : commonStart a b <+: a ∧ commonStart a b <+: b := by
  fun_induction commonStart a b with
  | case1 s c t ih => exact ⟨(List.prefix_cons_inj c).2 ih.1, (List.prefix_cons_inj c).2 ih.2⟩
  | case2 => exact ⟨List.nil_prefix, List.nil_prefix⟩
  | case3 => exact ⟨List.nil_prefix, List.nil_prefix⟩

/-- What several texts have in common is the front of each of them. -/
theorem foldl_commonStart_prefix (first : Text) (more : List Text) :
    more.foldl commonStart first <+: first ∧ ∀ t ∈ more, more.foldl commonStart first <+: t := by
  induction more generalizing first with
  | nil => exact ⟨List.prefix_rfl, by simp⟩
  | cons t more ih =>
    obtain ⟨front, rest⟩ := ih (commonStart first t)
    rw [List.foldl_cons, List.forall_mem_cons]
    obtain ⟨left, right⟩ := commonStart_prefix first t
    exact ⟨front.trans left, front.trans right, rest⟩

/-- Every line with content begins with the shared indentation. -/
theorem sharedIndent_prefix {lines : List Text} {line : Text} (mem : line ∈ lines)
    (content : isSpaces line = false) : sharedIndent lines <+: leadingBlanks line := by
  have found : leadingBlanks line ∈ (lines.filter (!isSpaces ·)).map leadingBlanks :=
    List.mem_map_of_mem (List.mem_filter.2 ⟨mem, by rw [content]; rfl⟩)
  rw [sharedIndent]
  split
  · -- there would be no line with content, but this is one
    next nothing =>
    rw [nothing] at found
    cases found
  · next first more shape =>
    rw [shape] at found
    obtain ⟨front, rest⟩ := foldl_commonStart_prefix first more
    rcases List.mem_cons.1 found with e | found
    · rw [e]
      exact front
    · exact rest _ found

/-- **A moved line**: a margin, and what is left of the line behind it. -/
structure Moved (line : Text) (p : Text × Text) : Prop where
  blank : ∀ c ∈ p.1, isBlank c = true
  inside : p.2 <:+: line
  trimmed : trim p.2 = trim line

/-- Nothing is left of a line of spaces. -/
theorem Moved.of_isSpaces {line margin : Text} (blank : ∀ c ∈ margin, isBlank c = true)
    (spaces : isSpaces line = true) : Moved line (margin, []) :=
  ⟨blank, List.nil_infix, by rw [trim_of_isSpaces spaces]; rfl⟩

/-- What stands behind some of the blanks at the front of a line is the line, trimmed. -/
theorem Moved.of_shared {line margin shared : Text} (blank : ∀ c ∈ margin, isBlank c = true)
    (h : shared <+: leadingBlanks line) : Moved line (margin, line.drop shared.length) := by
  refine ⟨blank, (List.drop_suffix _ _).isInfix, ?_⟩
  have front : shared <+: line := h.trans (List.takeWhile_prefix _)
  obtain ⟨rest, rfl⟩ := front
  have spaces : isSpaces shared = true := by
    refine isSpaces_iff.2 fun c hc => isSpace_of_isBlank ?_
    exact List.mem_takeWhile_imp (h.subset hc)
  rw [List.drop_left, trim_spaces_append spaces]

/-- What is left of a line with content has content. -/
theorem Moved.ne_nil {line : Text} {p : Text × Text} (h : Moved line p)
    (content : isSpaces line = false) : p.2 ≠ [] := by
  intro nothing
  have same := h.trimmed
  rw [nothing] at same
  exact trim_ne_nil content same.symm

/-- **Each moved line is blanks and the rest of the line.**  What is cut off at its front is
    shared by all lines with content, so it is blank; and a line of spaces comes to be empty. -/
theorem exists_moveLines {shared indent : Text} (blank : ∀ c ∈ indent, isBlank c = true)
    (lines : List Text) (h : ∀ line ∈ lines, isSpaces line = false → shared <+: leadingBlanks line) :
    ∃ pieces : List (Text × Text), moveLines shared indent lines = pieces.map (fun p => p.1 ++ p.2) ∧
      List.Forall₂ Moved lines pieces := by
  induction lines with
  | nil => exact ⟨[], rfl, .nil⟩
  | cons line lines ih =>
    rw [List.forall_mem_cons] at h
    obtain ⟨pieces, whole, moved⟩ := ih h.2
    cases spaces : isSpaces line with
    | true =>
      -- a line of spaces keeps its margin only where the last delimiter stands behind it
      cases lines with
      | nil =>
        refine ⟨[(indent, [])], ?_, .cons (.of_isSpaces blank spaces) .nil⟩
        simp [moveLines, spaces]
      | cons second more =>
        refine ⟨([], []) :: pieces, ?_, .cons (.of_isSpaces (List.forall_mem_nil _) spaces) moved⟩
        rw [moveLines, whole, moveLine, if_pos spaces]
        · rfl
        · exact List.cons_ne_nil _ _
    | false =>
      have here := Moved.of_shared blank (h.1 spaces)
      refine ⟨(indent, line.drop shared.length) :: pieces, ?_, .cons here moved⟩
      rw [List.map_cons, ← whole]
      cases lines <;> simp [moveLines, moveLine, spaces]

/-- The lines behind the first one of a comment, up to its last delimiter. -/
def Margin.moved (m : Margin) : List Text → Text
  | [] => []
  | [last] => m.terminator ++ (m.lead ++ last)
  | line :: more => m.line line ++ m.moved more

/-- **Moved lines behind a margin** are lines moved to the margin, each behind its terminator.
    The margin stands before lines with content only, so nothing is written on an empty line. -/
theorem moved_moveLines (m : Margin) {shared indent : Text} (lines : List Text)
    (h : ∀ line ∈ lines, isSpaces line = false → shared <+: leadingBlanks line) :
    m.moved (moveLines shared indent lines)
      = (moveLines shared (m.lead ++ indent) lines).flatMap (m.terminator ++ ·) := by
  induction lines with
  | nil => rfl
  | cons line lines ih =>
    rw [List.forall_mem_cons] at h
    cases lines with
    | nil => cases spaces : isSpaces line <;> simp [moveLines, moveLine, spaces, Margin.moved]
    | cons second more =>
      have next (margin : Text) : moveLines shared margin (line :: second :: more)
          = moveLine shared margin line :: moveLines shared margin (second :: more) := rfl
      have rest : m.moved (moveLine shared indent line :: moveLines shared indent (second :: more))
          = m.line (moveLine shared indent line) ++ m.moved (moveLines shared indent (second :: more)) := by
        cases more <;> rfl
      have own : m.line (moveLine shared indent line)
          = m.terminator ++ moveLine shared (m.lead ++ indent) line := by
        cases spaces : isSpaces line with
        | true => simp [moveLine, spaces, Margin.line]
        | false =>
          have here := Moved.of_shared (List.forall_mem_nil _) (h.1 spaces)
          have some_text : line.drop shared.length ≠ [] := here.ne_nil spaces
          simp [moveLine, spaces, Margin.line, some_text]
      rw [next, next, rest, own, ih h.2, List.flatMap_cons]

/-- What stands on the right of two related lists is related to something on the left. -/
theorem exists_of_mem_right {α β : Type} {R : α → β → Prop} {as : List α} {bs : List β}
    (h : List.Forall₂ R as bs) {b : β} (mem : b ∈ bs) : ∃ a ∈ as, R a b := by
  induction h with
  | nil => cases mem
  | cons here _ ih =>
    rcases List.mem_cons.1 mem with rfl | mem
    · exact ⟨_, List.mem_cons_self, here⟩
    · obtain ⟨a, ha, there⟩ := ih mem
      exact ⟨a, List.mem_cons_of_mem _ ha, there⟩

/-! ## The body -/

/-- The body of a comment as it is laid out at a depth. -/
def Margin.movedBody (m : Margin) (depth : Nat) (body : Text) : Text :=
  match linesOf body with
  | [] => []
  | first :: more =>
    first ++ (moveLines (sharedIndent more) (m.indent depth) more).flatMap (m.terminator ++ ·)

/-- The lines behind the first, with what ends the comment on the last of them. -/
theorem flatMap_moved (m : Margin) {lines : List Text} (some_line : lines ≠ []) {close : Text}
    (some_text : close ≠ []) :
    (continueLines lines [close]).flatMap m.line = m.moved lines ++ close := by
  induction lines with
  | nil => exact absurd rfl some_line
  | cons line lines ih =>
    cases lines with
    | nil =>
      rw [continueLines, List.flatMap_singleton, Margin.line,
        List.isEmpty_eq_false_iff.2 (by simp [some_text]), Margin.moved]
      simp
    | cons second lines =>
      rw [Margin.continueLines_cons, List.flatMap_cons, ih (List.cons_ne_nil _ _),
        ← List.append_assoc]
      rfl

/-- **A comment as it is laid out**: its moved body between the delimiters.  The delimiters stand
    on the first and on the last line, which are not moved apart from them. -/
theorem flow_commentPiece (m : Margin) (depth : Nat) (raw : Text) :
    m.flow (commentPiece m.unit depth raw).lines
      = (Token.comment (m.movedBody depth (commentBody raw))).written := by
  have opened := m.flow_continueLines [['<', '!', '-', '-']]
    (continueLines (commentLines (commentBody raw) (m.unit.indent depth)) [['-', '-', '>']]) rfl
    (.inl rfl)
  rw [commentPiece, Token.written]
  show m.flow (continueLines [['<', '!', '-', '-']] (continueLines
    (commentLines (commentBody raw) (m.unit.indent depth)) [['-', '-', '>']])) = _
  rw [opened, commentLines, Margin.movedBody, List.append_assoc]
  congr 1
  -- the delimiters stand on the first line and on the last, which are one if the body has one line
  cases linesOf (commentBody raw) with
  | nil => rfl
  | cons first more =>
    have placed : m.moved (moveLines (sharedIndent more) (m.unit.indent depth) more)
        = (moveLines (sharedIndent more) (m.indent depth) more).flatMap (m.terminator ++ ·) :=
      moved_moveLines m more fun line mem content => sharedIndent_prefix mem content
    simp only [← placed]
    cases moved : moveLines (sharedIndent more) (m.unit.indent depth) more with
    | nil => simp [continueLines, Margin.flow, Margin.moved]
    | cons line lines =>
      rw [Margin.continueLines_cons, Margin.flow,
        flatMap_moved m (List.cons_ne_nil _ _) (List.cons_ne_nil _ _), List.append_assoc]

/-- The body of a comment is what stands between its delimiters. -/
theorem commentBody_written (body : Text) : commentBody (Token.comment body).written = body := by
  rw [commentBody, Token.written, List.append_assoc, Text.dropStart?_append]
  simp only [Option.getD_some]
  rw [Text.dropEnd?_append, Option.getD_some]

theorem linesOf_eq (t : Text) : linesOf t = (splitOn '\n' t).map dropReturn := rfl

/-- A line of a body, without the carriage return that may end it. -/
theorem trim_dropReturn (line : Text) :
    dropReturn line <:+: line ∧ trim (dropReturn line) = trim line := by
  rw [dropReturn]
  rcases Text.getD_dropEnd? line ['\r'] with cut | same
  · generalize (dropEnd? line ['\r']).getD line = front at cut
    subst cut
    exact ⟨(List.prefix_append _ _).isInfix, (trim_append_spaces (by rfl) front).symm⟩
  · rw [same]
    exact ⟨List.infix_rfl, rfl⟩

/-- **The moved body** is the first line without its return, and each further line at its new
    margin behind a terminator.  All later facts about moved comments are read off these pieces. -/
theorem exists_movedBody {m : Margin} (proper : m.Proper) (depth : Nat) (body : Text) :
    ∃ (first : Text) (more : List Text) (start : Text) (pieces : List (Text × Text)),
      splitOn '\n' body = first :: more ∧ start <:+: first ∧ trim start = trim first ∧
      m.movedBody depth body = start ++ pieces.flatMap (fun p => m.terminator ++ (p.1 ++ p.2)) ∧
      List.Forall₂ Moved more pieces := by
  cases split : splitOn '\n' body with
  | nil => exact absurd split of_mem_splitOn.1
  | cons first more =>
    have lines : linesOf body = dropReturn first :: more.map dropReturn := by
      rw [linesOf_eq, split, List.map_cons]
    -- the first line stands behind the delimiter and is not moved
    obtain ⟨pieces, whole, moved⟩ := exists_moveLines (proper.isBlank_indent depth)
      (more.map dropReturn) (fun line mem content => sharedIndent_prefix mem content)
    refine ⟨first, more, _, pieces, rfl, (trim_dropReturn first).1, (trim_dropReturn first).2, ?_, ?_⟩
    · rw [Margin.movedBody, lines]
      show _ ++ (moveLines _ _ _).flatMap _ = _
      rw [whole, List.flatMap_map]
    · rw [List.forall₂_map_left_iff] at moved
      refine moved.imp fun line p here => ?_
      obtain ⟨inside, trimmed⟩ := trim_dropReturn line
      exact ⟨here.blank, here.inside.trans inside, here.trimmed.trans trimmed⟩

/-- The lines of a text in which lines stand behind one another at margins. -/
theorem map_trim_splitOn {m : Margin} (proper : m.Proper) {pieces : List (Text × Text)}
    (blanks : ∀ p ∈ pieces, ∀ c ∈ p.1, isBlank c = true) (no_break : ∀ p ∈ pieces, '\n' ∉ p.2)
    {start : Text} (no_break' : '\n' ∉ start) :
    (splitOn '\n' (start ++ pieces.flatMap fun p => m.terminator ++ (p.1 ++ p.2))).map trim
      = trim start :: pieces.map fun p => trim p.2 := by
  obtain ⟨front, ends, no_feed, spaces⟩ := proper.exists_front
  induction pieces generalizing start with
  | nil => rw [List.flatMap_nil, List.append_nil, splitOn_of_not_mem no_break']; rfl
  | cons p pieces ih =>
    rw [List.forall_mem_cons] at blanks no_break
    have here : '\n' ∉ start ++ front := by simp [no_break', no_feed]
    have margin : isSpaces p.1 = true :=
      isSpaces_iff.2 fun c hc => isSpace_of_isBlank (blanks.1 c hc)
    -- the margin and what is left of the line hold no line feed, so they are one line of the result
    have next : '\n' ∉ p.1 ++ p.2 := by
      rw [List.mem_append]
      rintro (feed | feed)
      · exact absurd (blanks.1 _ feed) (by decide)
      · exact no_break.1 feed
    have whole : start ++ (p :: pieces).flatMap (fun p => m.terminator ++ (p.1 ++ p.2))
        = (start ++ front) ++ '\n' :: ((p.1 ++ p.2)
          ++ pieces.flatMap fun p => m.terminator ++ (p.1 ++ p.2)) := by
      rw [List.flatMap_cons, ends]
      simp
    rw [whole, splitOn_append here, List.map_cons, ih blanks.2 no_break.2 next,
      trim_append_spaces spaces, trim_spaces_append margin, List.map_cons]

/-- **Each line of a comment, trimmed, is what it was**, and there are as many of them: the
    content of a comment stays when it is moved. -/
theorem map_trim_movedBody {m : Margin} (proper : m.Proper) (depth : Nat) (body : Text) :
    (splitOn '\n' (m.movedBody depth body)).map trim = (splitOn '\n' body).map trim := by
  obtain ⟨first, more, start, pieces, split, inside, trimmed, whole, moved⟩ :=
    exists_movedBody proper depth body
  have lines : ∀ piece ∈ splitOn '\n' body, '\n' ∉ piece ∧ piece <:+: body := of_mem_splitOn.2.2
  rw [split, List.forall_mem_cons] at lines
  have blanks : ∀ p ∈ pieces, ∀ c ∈ p.1, isBlank c = true := by
    intro p hp
    obtain ⟨_, -, here⟩ := exists_of_mem_right moved hp
    exact here.blank
  -- what is left of a line holds no line feed, since the line does not
  have no_break : ∀ p ∈ pieces, '\n' ∉ p.2 := by
    intro p hp feed
    obtain ⟨line, hl, here⟩ := exists_of_mem_right moved hp
    exact (lines.2 line hl).1 (here.inside.subset feed)
  rw [whole, map_trim_splitOn proper blanks no_break fun feed => lines.1.1 (inside.subset feed), split,
    List.map_cons, trimmed]
  congr 1
  clear no_break whole blanks split lines
  induction moved with
  | nil => rfl
  | cons here _ ih => rw [List.map_cons, List.map_cons, ih, here.trimmed]

/-! ## The end of a comment -/

/-- **Moving the lines of a comment makes no second end.**  An end delimiter in the moved body
    would have to contain a character of filler, or stand in a line, where there was one before. -/
theorem endsFirst_movedBody {m : Margin} (proper : m.Proper) (depth : Nat) {body : Text}
    (h : EndsFirst ['-', '-', '>'] body) : EndsFirst ['-', '-', '>'] (m.movedBody depth body) := by
  rw [endsFirst_iff] at h ⊢
  obtain ⟨first, more, start, pieces, split, inside, -, whole, moved⟩ :=
    exists_movedBody proper depth body
  have lines : ∀ piece ∈ splitOn '\n' body, '\n' ∉ piece ∧ piece <:+: body := of_mem_splitOn.2.2
  rw [split, List.forall_mem_cons] at lines
  have none_start : ¬ ['-', '-', '>'] <:+: start := fun here => h ((here.trans inside).trans lines.1.2)
  have none_piece : ∀ p ∈ pieces, (∀ c ∈ p.1, isBlank c = true) ∧ ¬ ['-', '-', '>'] <:+: p.2 := by
    intro p hp
    obtain ⟨line, hl, there⟩ := exists_of_mem_right moved hp
    exact ⟨there.blank, fun here => h ((here.trans there.inside).trans (lines.2 line hl).2)⟩
  rw [whole]
  clear whole moved inside split lines
  -- a margin holds none of the delimiter's characters, so that no delimiter stands across it
  induction pieces generalizing start with
  | nil => rwa [List.flatMap_nil, List.append_nil]
  | cons p pieces ih =>
    rw [List.forall_mem_cons] at none_piece
    have margin : ∀ c ∈ m.terminator ++ p.1, c ∉ ['-', '-', '>'] := by
      intro c hc mark
      have filler : IsFiller c := (List.mem_append.1 hc).elim (proper.isFiller_terminator c)
        fun hc => .inr (.inr (none_piece.1.1 c hc))
      refine filler.not_mem ?_
      revert mark
      simp only [List.mem_cons, List.not_mem_nil, or_false]
      rintro (rfl | rfl | rfl) <;> simp
    intro here
    have shape : start ++ (p :: pieces).flatMap (fun p => m.terminator ++ (p.1 ++ p.2))
        = start ++ ((m.terminator ++ p.1) ++ (p.2
          ++ pieces.flatMap fun p => m.terminator ++ (p.1 ++ p.2))) := by
      rw [List.flatMap_cons]
      simp
    rw [shape] at here
    rcases infix_of_infix_append (by simp [proper.ne_nil]) margin here with front | back
    · exact none_start front
    · exact ih p.2 none_piece.1.2 none_piece.2 back

end XmlGraft.Graft
