/-
  Cuts — the places at which lines end.

  Lines stand one behind the other with a line feed between each two; but a line may hold line feeds
  of its own, so that not every line feed of the text ends a line.  The printer lays an element out
  on lines and says where they end; what it says cannot be read off the text, and is compared with
  it here.

  1. **Cuts** (`Cut`): what stands before the end of a line, and the lines after it.  There the text
     has a line feed (`Cut.joined`), and where no line holds one, each line feed is a cut
     (`exists_cut`).

  2. **Lines that are continued** (`cut_continueLines`): the last line goes on in the first of
     others.  They are cut where the lines are, and where those are that continue them.  By
     induction on the lines in front, through `cut_cons`, which takes one of them off.

  3. **Margined lines** (`Margined`): empty, or behind an indentation; the last one is behind it.
     The lines of a comment are so, and stay so when markup goes on behind its end
     (`Margined.continueLines`).

  Cuts are told by texts and not by numbers.  That is what makes them stay when lines are continued:
  an offset would move with everything in front of it, while what stands before a line and what
  stands behind it only grow.
-/
import XmlGraft.Proofs.Graft.Printed

namespace XmlGraft.Layout

/-! ## Cuts -/

/-- **A cut**: behind a text a line ends, and others follow. -/
def Cut (lines : List Text) (front : Text) (below : List Text) : Prop :=
  below ≠ [] ∧ ∃ above, above ≠ [] ∧ lines = above ++ below ∧ joined above = front

/-- Two lists of lines, with the line feed between them that parts their lines. -/
theorem joined_append {above below : List Text} (some_above : above ≠ []) (some_below : below ≠ []) :
    joined (above ++ below) = joined above ++ '\n' :: joined below := by
  obtain ⟨next, more, rfl⟩ := List.exists_cons_of_ne_nil some_below
  induction above with
  | nil => exact absurd rfl some_above
  | cons first above ih =>
    cases above with
    | nil => rw [List.singleton_append, joined_cons, joined_singleton]
    | cons second above =>
      have rest := ih (List.cons_ne_nil _ _)
      rw [List.cons_append] at rest
      rw [List.cons_append, List.cons_append, joined_cons, rest, joined_cons, List.append_assoc,
        List.cons_append]

theorem joined_concat_append (above : List Text) (head more : Text) :
    joined (above ++ [head ++ more]) = joined (above ++ [head]) ++ more := by
  cases above with
  | nil => rw [List.nil_append, List.nil_append, joined_singleton, joined_singleton]
  | cons first above =>
    rw [joined_append (List.cons_ne_nil _ _) (List.cons_ne_nil _ _),
      joined_append (List.cons_ne_nil _ _) (List.cons_ne_nil _ _), joined_singleton, joined_singleton,
      List.append_assoc, List.cons_append]

variable {lines more below : List Text} {front line : Text}

/-- **At a cut** stands a line feed. -/
theorem Cut.joined (h : Cut lines front below) : joined lines = front ++ '\n' :: joined below := by
  obtain ⟨some_below, above, some_above, rfl, rfl⟩ := h
  exact joined_append some_above some_below

/-- One line is not cut, whatever it holds. -/
theorem not_cut_singleton : ¬Cut [line] front below := by
  rintro ⟨some_below, above, some_above, whole, -⟩
  obtain ⟨first, above, rfl⟩ := List.exists_cons_of_ne_nil some_above
  obtain ⟨-, nothing⟩ := List.cons.inj whole
  exact some_below (List.append_eq_nil_iff.1 nothing.symm).2

/-- Lines are cut behind the first one, and where the others are cut. -/
theorem cut_cons : Cut (line :: lines) front below ↔
    (lines ≠ [] ∧ front = line ∧ below = lines) ∨
      ∃ front', Cut lines front' below ∧ front = line ++ '\n' :: front' := by
  constructor
  · rintro ⟨some_below, above, some_above, whole, rfl⟩
    obtain ⟨first, above, rfl⟩ := List.exists_cons_of_ne_nil some_above
    obtain ⟨rfl, rfl⟩ := List.cons.inj whole
    cases above with
    | nil => exact .inl ⟨some_below, joined_singleton _, rfl⟩
    | cons second above =>
      exact .inr ⟨_, ⟨some_below, _, List.cons_ne_nil _ _, rfl, rfl⟩, joined_cons _ _ _⟩
  · rintro (⟨some_line, rfl, rfl⟩ | ⟨front', ⟨some_below, above, some_above, rfl, rfl⟩, rfl⟩)
    · exact ⟨some_line, [_], List.cons_ne_nil _ _, rfl, joined_singleton _⟩
    · refine ⟨some_below, line :: above, List.cons_ne_nil _ _, rfl, ?_⟩
      exact joined_append (List.cons_ne_nil line []) some_above |>.trans (by rw [joined_singleton])

/-- **Where no line holds a line feed**, each line feed of the text is a cut.  By induction on the
    lines, with the text before the line feed shortened by the first of them. -/
theorem exists_cut (inside : ∀ line ∈ lines, '\n' ∉ line) {back : Text}
    (whole : Layout.joined lines = front ++ '\n' :: back) :
    ∃ below, Cut lines front below ∧ Layout.joined below = back := by
  induction lines generalizing front with
  | nil => cases front <;> cases whole
  | cons first lines ih =>
    rw [List.forall_mem_cons] at inside
    cases lines with
    | nil =>
      rw [joined_singleton] at whole
      exact absurd (by rw [whole]; simp) inside.1
    | cons second lines =>
      rw [joined_cons, List.append_eq_append_iff] at whole
      -- the first line ends where the text does, or before
      rcases whole with ⟨gap, rfl, rest⟩ | ⟨gap, rfl, rest⟩
      · cases gap with
        | nil =>
          obtain ⟨-, rfl⟩ := List.cons.inj rest
          refine ⟨second :: lines, cut_cons.2 (.inl ⟨List.cons_ne_nil _ _, ?_, rfl⟩), rfl⟩
          rw [List.append_nil]
        | cons c gap =>
          obtain ⟨rfl, behind⟩ := List.cons.inj rest
          obtain ⟨below, cut, same⟩ := ih inside.2 behind
          exact ⟨below, cut_cons.2 (.inr ⟨gap, cut, rfl⟩), same⟩
      · -- the line feed cannot lie in the first line, which holds none
        cases gap with
        | nil =>
          obtain ⟨-, rfl⟩ := List.cons.inj rest
          refine ⟨second :: lines, cut_cons.2 (.inl ⟨List.cons_ne_nil _ _, ?_, rfl⟩), rfl⟩
          rw [List.append_nil]
        | cons c gap =>
          obtain ⟨rfl, -⟩ := List.cons.inj rest
          exact absurd (by simp) inside.1

/-! ## Lines that are continued -/

/-- The last line is continued by the first of the others. -/
theorem continueLines_concat (above : List Text) (last next : Text) (below : List Text) :
    continueLines (above ++ [last]) (next :: below) = above ++ (last ++ next) :: below := by
  induction above with
  | nil => rfl
  | cons first above ih =>
    cases above with
    | nil => rfl
    | cons second above =>
      rw [List.cons_append, List.cons_append, Graft.Margin.continueLines_cons, ← List.cons_append, ih]
      rfl

/-- It does not matter which lines are continued first. -/
theorem continueLines_assoc (lines more others : List Text) :
    continueLines (continueLines lines more) others
      = continueLines lines (continueLines more others) := by
  induction lines with
  | nil => rfl
  | cons first lines ih =>
    cases lines with
    | nil =>
      rcases more with _ | ⟨next, _ | ⟨second, more⟩⟩
      · rfl
      · cases others <;> simp [continueLines]
      · rw [Graft.Margin.continueLines_cons]
        simp only [continueLines]
    | cons second lines =>
      obtain ⟨next, rest, shape⟩ :=
        List.exists_cons_of_ne_nil (continueLines_ne_nil (List.cons_ne_nil second lines) more)
      rw [Graft.Margin.continueLines_cons, Graft.Margin.continueLines_cons, ← ih, shape,
        Graft.Margin.continueLines_cons]

/-- Going on with nothing changes nothing. -/
theorem continueLines_nil_line (some_line : lines ≠ []) : continueLines lines [[]] = lines := by
  rcases List.eq_nil_or_concat lines with rfl | ⟨above, last, rfl⟩
  · exact absurd rfl some_line
  · rw [List.concat_eq_append, continueLines_concat, List.append_nil]

/-- The first line is still there, and may go on. -/
theorem exists_continueLines (line : Text) (lines more : List Text) :
    ∃ line' others, continueLines (line :: lines) more = line' :: others ∧ line <+: line' := by
  cases lines with
  | nil =>
    cases more with
    | nil => exact ⟨line, [], rfl, List.prefix_rfl⟩
    | cons next more => exact ⟨line ++ next, more, rfl, List.prefix_append _ _⟩
  | cons second lines =>
    exact ⟨line, _, Graft.Margin.continueLines_cons _ _ _ _, List.prefix_rfl⟩

/-- What the last line ends with it ends with still, when it goes on where other lines end. -/
theorem exists_concat_continueLines (some_line : lines ≠ []) (above : List Text) (head last : Text) :
    ∃ above' head', continueLines lines (above ++ [head ++ last]) = above' ++ [head' ++ last] := by
  rcases List.eq_nil_or_concat lines with rfl | ⟨front, end_, rfl⟩
  · exact absurd rfl some_line
  · rw [List.concat_eq_append]
    cases above with
    | nil => exact ⟨front, end_ ++ head, by rw [List.nil_append, continueLines_concat, List.append_assoc]⟩
    | cons first above =>
      refine ⟨front ++ (end_ ++ first) :: above, head, ?_⟩
      rw [List.cons_append, continueLines_concat, List.append_assoc, List.cons_append]

/-- **Lines that are continued** are cut where the lines are cut, and where those are that
    continue them; the line that goes on is not cut where it did. -/
theorem cut_continueLines (some_line : lines ≠ []) (some_more : more ≠ []) :
    Cut (continueLines lines more) front below ↔
      (∃ below', Cut lines front below' ∧ below = continueLines below' more) ∨
        ∃ front', Cut more front' below ∧ front = Layout.joined lines ++ front' := by
  obtain ⟨next, more, rfl⟩ := List.exists_cons_of_ne_nil some_more
  induction lines generalizing front with
  | nil => exact absurd rfl some_line
  | cons first lines ih =>
    cases lines with
    | nil =>
      -- one line in front: it goes on in the first of the others, and is cut where that is
      rw [continueLines, cut_cons, joined_singleton]
      constructor
      · rintro (⟨some_below, rfl, rfl⟩ | ⟨front', cut, rfl⟩)
        · exact .inr ⟨next, cut_cons.2 (.inl ⟨some_below, rfl, rfl⟩), rfl⟩
        · refine .inr ⟨_, cut_cons.2 (.inr ⟨front', cut, rfl⟩), ?_⟩
          rw [List.append_assoc]
      · rintro (⟨below', cut, -⟩ | ⟨front', cut, rfl⟩)
        · exact absurd cut not_cut_singleton
        · rcases cut_cons.1 cut with ⟨some_below, rfl, rfl⟩ | ⟨front', inner, rfl⟩
          · exact .inl ⟨some_below, rfl, rfl⟩
          · exact .inr ⟨front', inner, by rw [List.append_assoc]⟩
    | cons second lines =>
      have rest (front' : Text) := @ih front' (List.cons_ne_nil second lines)
      rw [Graft.Margin.continueLines_cons, cut_cons, joined_cons]
      constructor
      · rintro (⟨-, rfl, rfl⟩ | ⟨front', cut, rfl⟩)
        · exact .inl ⟨_, cut_cons.2 (.inl ⟨List.cons_ne_nil _ _, rfl, rfl⟩), rfl⟩
        · rcases (rest _).1 cut with ⟨below', inner, rfl⟩ | ⟨front', inner, rfl⟩
          · exact .inl ⟨below', cut_cons.2 (.inr ⟨_, inner, rfl⟩), rfl⟩
          · exact .inr ⟨front', inner, by rw [List.append_assoc, List.cons_append]⟩
      · rintro (⟨below', cut, rfl⟩ | ⟨front', cut, rfl⟩)
        · rcases cut_cons.1 cut with ⟨-, rfl, rfl⟩ | ⟨front', inner, rfl⟩
          · exact .inl ⟨continueLines_ne_nil (List.cons_ne_nil _ _) _, rfl, rfl⟩
          · exact .inr ⟨front', (rest _).2 (.inl ⟨below', inner, rfl⟩), rfl⟩
        · refine .inr ⟨_, (rest _).2 (.inr ⟨front', cut, rfl⟩), ?_⟩
          rw [List.append_assoc, List.cons_append]

/-! ## Margined lines -/

/-- **Margined lines** are empty or stand behind an indentation; the last one stands behind it. -/
def Margined (indent : Text) : List Text → Prop
  | [] => True
  | [last] => indent <+: last
  | line :: lines => (line = [] ∨ indent <+: line) ∧ Margined indent lines

variable {indent : Text}

theorem Margined.head (h : Margined indent (line :: lines)) : line = [] ∨ indent <+: line := by
  cases lines with
  | nil => exact .inr h
  | cons => exact h.1

theorem Margined.tail (h : Margined indent (line :: lines)) : Margined indent lines := by
  cases lines with
  | nil => trivial
  | cons => exact h.2

theorem Margined.of_append {above : List Text} (h : Margined indent (above ++ lines)) :
    Margined indent lines := by
  induction above with
  | nil => exact h
  | cons line above ih => exact ih h.tail

/-- The first of them is empty or behind the indentation, also when the last one goes on. -/
theorem Margined.exists_continueLines (h : Margined indent (line :: lines)) (next : Text)
    (more : List Text) : ∃ line' others,
      Layout.continueLines (line :: lines) (next :: more) = line' :: others ∧
      (line' = [] ∨ indent <+: line') := by
  cases lines with
  | nil => exact ⟨line ++ next, more, rfl, .inr (List.IsPrefix.trans h (List.prefix_append _ _))⟩
  | cons second lines => exact ⟨line, _, Graft.Margin.continueLines_cons _ _ _ _, h.head⟩

/-- They stay so when the last one goes on. -/
theorem Margined.continueLines (h : Margined indent lines) (some_line : lines ≠ []) (next : Text) :
    Margined indent (Layout.continueLines lines [next]) := by
  induction lines with
  | nil => exact absurd rfl some_line
  | cons first lines ih =>
    cases lines with
    | nil => exact List.IsPrefix.trans h (List.prefix_append _ _)
    | cons second lines =>
      have rest := ih h.tail (List.cons_ne_nil _ _)
      obtain ⟨last, others, shape⟩ :=
        List.exists_cons_of_ne_nil (continueLines_ne_nil (List.cons_ne_nil second lines) [next])
      rw [Graft.Margin.continueLines_cons]
      rw [shape] at rest ⊢
      exact ⟨h.head, rest⟩

/-- **Moved lines** are margined: the indentation is put in front of each that is not blank, and
    of the last one in any case. -/
theorem margined_moveLines (shared indent : Text) (lines : List Text) :
    Margined indent (moveLines shared indent lines) := by
  have own (line : Text) : moveLine shared indent line = [] ∨ indent <+: moveLine shared indent line := by
    rw [moveLine]
    split
    · exact .inl rfl
    · exact .inr (List.prefix_append _ _)
  fun_induction moveLines shared indent lines with
  | case1 => trivial
  | case2 last =>
    split
    · exact List.prefix_rfl
    · next content =>
      rw [moveLine, if_neg content]
      exact List.prefix_append _ _
  | case3 line lines some_line ih =>
    cases moved : moveLines shared indent lines with
    | nil =>
      cases lines with
      | nil => exact absurd rfl some_line
      | cons second lines => cases lines <;> cases moved
    | cons =>
      rw [moved] at ih
      exact ⟨own line, ih⟩

/-- **The lines of a comment** behind its first are margined; the end mark goes on in the last of
    them. -/
theorem margined_commentPiece (unit : IndentUnit) (depth : Nat) (raw : Text) :
    ∃ first more, (commentPiece unit depth raw).lines = first :: more ∧
      Margined (unit.indent depth) more := by
  rw [commentPiece, commentLines]
  split
  · exact ⟨_, [], rfl, trivial⟩
  · next first more lines =>
    have moved := margined_moveLines (sharedIndent more) (unit.indent depth) more
    cases shape : moveLines (sharedIndent more) (unit.indent depth) more with
    | nil => exact ⟨_, [], rfl, trivial⟩
    | cons second others =>
      rw [shape] at moved
      exact ⟨_, _, rfl, moved.continueLines (List.cons_ne_nil _ _) _⟩

end XmlGraft.Layout
