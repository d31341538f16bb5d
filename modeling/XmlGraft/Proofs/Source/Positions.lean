/-
  Positions — what the line and the column of a byte say about the text before it.

  A position is looked up: the row among the line feeds, then the bytes of the row up to the offset,
  which are cut out and counted.  A byte-order mark is passed over on the first row, where an offset
  may stand before, inside or behind it.

  1. **Boundaries** (`Boundary`): the bytes where a text can be cut.  Everything is said by the
     piece of text in front of the byte, and two bytes are compared by their pieces
     (`prefix_of_size_le`).

  2. **What counts for columns** (`Row.slice?_visible`): of a row up to an offset, everything but
     the mark.  Positions and lines are both cut out there (`Row.position?`, `Row.line?`), so that a
     position is a place in its line (`take_line?`).  This is the lemma that the others are read off
     from; the first row is the only one in which the mark is looked at.

  3. **Position of a boundary** (`position?_size`): the line feeds before it, and the characters
     behind the last of them.  An offset that is no boundary has no position, for the row cannot be
     cut there (`isSome_position?_iff`).

  4. **Order** (`before_of_lt`): further behind is a later position, from the end of the mark on.

  5. **All of it** (`position?_outcome`).
-/
import XmlGraft.Proofs.Edit.Provenance
import XmlGraft.Proofs.Source.Rows

namespace XmlGraft

open Markup Text

/-! ## Boundaries -/

/-- **Boundary**: a byte at which a text can be cut, since a character ends there. -/
def Text.Boundary (t : Text) (n : Nat) : Prop := ∃ front back, t = front ++ back ∧ front.size = n

/-- A piece that is cut out stands between two boundaries. -/
theorem Text.exists_of_slice? {t x : Text} {a b : Nat} (h : slice? t a b = some x) :
    ∃ before after, t = before ++ x ++ after ∧ before.size = a ∧ (before ++ x).size = b := by
  rw [slice?, Option.bind_eq_bind, Option.bind_eq_some_iff] at h
  obtain ⟨before, past, cut⟩ := h
  obtain ⟨rest, rfl⟩ := prefix_of_before? past
  rw [List.drop_left] at cut
  -- the second end is not before the first, or nothing would have been cut out
  split at cut
  · next le =>
    obtain ⟨after, rfl⟩ := prefix_of_before? cut
    have start := size_of_before? past
    have length := size_of_before? cut
    refine ⟨before, after, by rw [List.append_assoc], start, ?_⟩
    rw [size_append]
    omega
  · cases cut

/-- Of two pieces at the front of a text, the shorter one is at the front of the other. -/
theorem Text.prefix_of_size_le {t s s' : Text} (h : s <+: t) (h' : s' <+: t)
    (le : s.size ≤ s'.size) : s <+: s' := by
  rcases Nat.le_total s.length s'.length with shorter | longer
  · exact List.prefix_of_prefix_length_le h h' shorter
  · -- the longer piece could only be longer by characters that take no bytes
    obtain ⟨u, rfl⟩ := List.prefix_of_prefix_length_le h' h longer
    cases u with
    | nil => exact ⟨[], by rw [List.append_nil, List.append_nil]⟩
    | cons c u =>
      have := c.utf8Size_pos
      rw [size_append, size_cons] at le
      omega

/-! ## What counts for columns -/

/-- **What of a row counts for columns**: on the first row, not the byte-order mark. -/
def shown (before line : Text) : Text := if before.isEmpty then withoutMark line else line

theorem withoutMark_prefix {s t : Text} (h : s <+: t) : withoutMark s <+: withoutMark t := by
  cases s with
  | nil => exact List.nil_prefix
  | cons c s =>
    obtain ⟨rest, rfl⟩ := h
    rw [List.cons_append, withoutMark, withoutMark]
    split
    · exact List.prefix_append _ _
    · exact ⟨rest, rfl⟩

/-- A longer piece of a row shows what a shorter one does. -/
theorem shown_prefix {before s t : Text} (h : s <+: t) : shown before s <+: shown before t := by
  rw [shown, shown]
  split
  · exact withoutMark_prefix h
  · exact h

/-- A text is its mark, as far as it has one, and what stands behind it. -/
theorem exists_mark (t : Text) :
    ∃ mark, t = mark ++ withoutMark t ∧ (mark = [] ∧ t.head? ≠ some byteOrderMark ∨
      mark = [byteOrderMark] ∧ t.head? = some byteOrderMark) := by
  cases t with
  | nil => exact ⟨[], rfl, .inl ⟨rfl, by simp⟩⟩
  | cons c t =>
    by_cases isMark : c = byteOrderMark
    · refine ⟨[byteOrderMark], ?_, .inr ⟨rfl, by rw [isMark]; rfl⟩⟩
      rw [withoutMark, if_pos isMark, isMark]
      rfl
    · refine ⟨[], ?_, .inl ⟨rfl, fun first => isMark (Option.some.inj first)⟩⟩
      rw [withoutMark, if_neg isMark]
      rfl

namespace Source

namespace Row

variable {text before piece rest behind : Text} (row : Row text before (piece ++ rest) behind)

include row in
theorem whole_piece : text = before ++ piece ++ (rest ++ behind) := by
  rw [row.whole]
  simp only [List.append_assoc]

include row in
/-- **A row up to an offset**, from where its columns are counted: what is shown of it. -/
theorem slice?_visible :
    slice? text ((Source.ofText text).visibleStart (before.count '\n') before.size
      (before ++ piece).size) (before ++ piece).size = some (shown before piece) := by
  have whole := row.whole_piece
  rcases row.starts with rfl | ⟨t, rfl⟩
  · obtain ⟨mark, split, isMark⟩ := exists_mark piece
    have same : (Source.ofText text).text = text := rfl
    -- the mark is passed over as far as the offset is behind it
    have start : (Source.ofText text).visibleStart 0 0 piece.size = mark.size := by
      rw [visibleStart, if_pos rfl, markSize, same]
      cases piece with
      | nil =>
        obtain ⟨rfl, -⟩ := List.append_eq_nil_iff.1 split.symm
        exact Nat.min_zero _
      | cons c piece =>
        have first : text.head? = (c :: piece).head? := by rw [whole]; rfl
        rw [first]
        rcases isMark with ⟨rfl, other⟩ | ⟨rfl, isMark⟩
        · rw [if_neg other]
          exact Nat.zero_min _
        · have mark : byteOrderMark.utf8Size = Text.size [byteOrderMark] := rfl
          have size := congrArg Text.size split
          rw [size_append] at size
          rw [if_pos isMark, mark, Nat.zero_max, Nat.min_eq_left (by omega)]
    have shown_part : text = mark ++ withoutMark piece ++ (rest ++ behind) := by
      rw [← split]
      exact whole
    have cut := slice?_of_eq shown_part
    rw [← split, ← start] at cut
    exact cut
  · have later : (t ++ ['\n']).count '\n' ≠ 0 := by simp
    rw [visibleStart, if_neg later, shown, if_neg (by simp)]
    exact slice?_of_eq whole

include row in
/-- **The position of an offset in a row**: behind what is shown of the row up to there. -/
theorem position? : (Source.ofText text).position? (before ++ piece).size
    = some ⟨before.count '\n' + 1, (shown before piece).length + 1⟩ := by
  have whole := row.whole_piece
  have fits : (before ++ piece).size ≤ text.size := by
    rw [whole, size_append (before ++ piece)]
    omega
  have no_feed : '\n' ∉ piece := fun mem => row.inside (List.mem_append_left _ mem)
  have feeds : (takeBytes text (before ++ piece).size).count '\n' = before.count '\n' := by
    rw [whole, takeBytes_size, List.count_append, List.count_eq_zero.2 no_feed, Nat.add_zero]
  obtain ⟨start, starts, -, located⟩ := LineIndex.location?_ofText fits
  rw [feeds] at starts located
  obtain rfl := Option.some.inj (row.lineStart?.symm.trans starts)
  have index : (Source.ofText text).index = LineIndex.ofText text := rfl
  have same : (Source.ofText text).text = text := rfl
  have back : (before ++ piece).size - ((before ++ piece).size - before.size) = before.size := by
    rw [size_append]
    omega
  rw [Source.position?, index, located, same]
  simp only [Option.bind_eq_bind, Option.bind_some, back, row.slice?_visible]
  rfl

end Row

/-- **The text of a row** is what is shown of its line, without the return that may end it. -/
theorem Row.line? {text before line behind : Text} (row : Row text before line behind) :
    (Source.ofText text).line? (before.count '\n') = some (shown before (dropReturn line)) := by
  obtain ⟨rest, split⟩ := exists_dropReturn line
  have range := row.lineRange?
  rw [split] at row
  have same : (Source.ofText text).text = text := rfl
  rw [Source.line?, range]
  simp only [Option.bind_eq_bind, Option.bind_some, same]
  exact row.slice?_visible

end Source

/-! ## The position of a boundary -/

theorem lastLine_of_not_mem {t : Text} (h : '\n' ∉ t) : lastLine t = t := by
  rw [lastLine, List.takeWhile_eq_self_iff.2, List.reverse_reverse]
  intro c mem
  exact bne_iff_ne.2 fun feed => h (feed ▸ List.mem_reverse.1 mem)

/-- What stands behind a line feed and holds none is the last line. -/
theorem lastLine_append_cons (t : Text) {line : Text} (h : '\n' ∉ line) :
    lastLine (t ++ '\n' :: line) = line := by
  have last : (t ++ '\n' :: line).reverse = line.reverse ++ '\n' :: t.reverse := by simp
  rw [lastLine, last, List.takeWhile_append_of_pos, List.takeWhile_cons_of_neg (by simp),
    List.append_nil, List.reverse_reverse]
  intro c mem
  exact bne_iff_ne.2 fun feed => h (feed ▸ List.mem_reverse.1 mem)

/-- A boundary stands in a row: behind what the row begins with, which is the last line of the
    text before it. -/
theorem exists_row_of_boundary (front back : Text) :
    ∃ before rest behind, front = before ++ lastLine front ∧
      Source.Row (front ++ back) before (lastLine front ++ rest) behind := by
  obtain ⟨before, split, starts, no_feed⟩ := exists_lastLine front
  obtain ⟨rest, behind, whole, no_feed', ends⟩ := exists_line back
  refine ⟨before, rest, behind, split, ?_, starts, ?_, ends⟩
  · conv => lhs; rw [split, whole]
    simp only [List.append_assoc]
  · simp [no_feed, no_feed']

/-- What is shown of a row up to a boundary is the last line before it. -/
theorem Source.Row.shown_eq {text before piece rest behind : Text}
    (row : Row text before (piece ++ rest) behind) :
    shown before piece = lastLine (withoutMark (before ++ piece)) := by
  have no_feed : '\n' ∉ piece := fun mem => row.inside (List.mem_append_left _ mem)
  -- on the first row the mark is taken off the row itself, on any other it stands further in front
  rcases row.starts with rfl | ⟨t, rfl⟩
  · have no_feed' : '\n' ∉ withoutMark piece := by
      obtain ⟨mark, split, -⟩ := exists_mark piece
      intro mem
      rw [split] at no_feed
      exact no_feed (List.mem_append_right _ mem)
    exact (lastLine_of_not_mem no_feed').symm
  · rw [shown, if_neg (by simp), List.append_assoc, List.singleton_append,
      withoutMark_append_cons t (by decide), lastLine_append_cons _ no_feed]

/-- The mark is no line feed. -/
theorem count_withoutMark (t : Text) : (withoutMark t).count '\n' = t.count '\n' := by
  obtain ⟨mark, split, isMark⟩ := exists_mark t
  have feeds : mark.count '\n' = 0 := by
    rcases isMark with ⟨rfl, -⟩ | ⟨rfl, -⟩ <;> rfl
  conv => rhs; rw [split]
  rw [List.count_append, feeds, Nat.zero_add]

/-- **The position of a boundary** is behind the text before it, without a byte-order mark. -/
theorem position?_size (front back : Text) :
    (Source.ofText (front ++ back)).position? front.size
      = some (.behind (withoutMark front)) := by
  obtain ⟨before, rest, behind, split, row⟩ := exists_row_of_boundary front back
  have no_feed : '\n' ∉ lastLine front := fun mem => row.inside (List.mem_append_left _ mem)
  have found := row.position?
  have count : before.count '\n' = (withoutMark front).count '\n' := by
    rw [count_withoutMark]
    conv => rhs; rw [split]
    rw [List.count_append, List.count_eq_zero.2 no_feed, Nat.add_zero]
  rw [row.shown_eq, ← split, count, ← Position.behind_eq] at found
  exact found

/-- **There is a position exactly at a boundary**, since the bytes of the row up to it are cut
    out. -/
theorem isSome_position?_iff (text : Text) (n : Nat) :
    ((Source.ofText text).position? n).isSome = true ↔ Boundary text n := by
  constructor
  · intro found
    obtain ⟨p, found⟩ := Option.isSome_iff_exists.1 found
    -- the bytes of the row up to the offset can be cut out
    rw [Source.position?, Option.bind_eq_bind, Option.bind_eq_some_iff] at found
    obtain ⟨location, -, found⟩ := found
    obtain ⟨past, cut, -⟩ := Option.bind_eq_some_iff.1 found
    obtain ⟨before, after, whole, -, stop⟩ := exists_of_slice? cut
    exact ⟨before ++ past, after, whole, stop⟩
  · rintro ⟨front, back, rfl, rfl⟩
    rw [position?_size]
    rfl

/-- A position belongs to a boundary. -/
theorem boundary_of_position? {text : Text} {n : Nat} {p : Position}
    (h : (Source.ofText text).position? n = some p) : Boundary text n :=
  (isSome_position?_iff text n).1 (Option.isSome_iff_exists.2 ⟨p, h⟩)

/-- Behind the mark, a text goes on with what follows. -/
theorem withoutMark_append_of_markSize_le {front piece back : Text}
    (h : (Source.ofText (front ++ (piece ++ back))).markSize ≤ front.size) :
    withoutMark (front ++ piece) = withoutMark front ++ piece := by
  cases front with
  | nil =>
    cases piece with
    | nil => rfl
    | cons c piece =>
      have unmarked : Unmarked (c :: piece) := by
        intro first
        have mark : (Source.ofText ([] ++ (c :: piece ++ back))).markSize
            = byteOrderMark.utf8Size := if_pos first
        rw [mark] at h
        exact absurd h (by decide)
      exact withoutMark_of_unmarked unmarked
  | cons c front =>
    rw [List.cons_append, withoutMark, withoutMark]
    split <;> rfl

/-- **Further behind is a later position**, from the end of the mark on.  The text before the one
    byte is a front of the text before the other, and every character between them moves the
    position on. -/
theorem before_of_lt {text : Text} {m n : Nat} {p q : Position}
    (mark : (Source.ofText text).markSize ≤ m) (lt : m < n)
    (hp : (Source.ofText text).position? m = some p)
    (hq : (Source.ofText text).position? n = some q) : p.Before q := by
  obtain ⟨front, back, whole, rfl⟩ := boundary_of_position? hp
  obtain ⟨front', back', rfl, rfl⟩ := boundary_of_position? hq
  -- the text before the one is at the front of the text before the other
  obtain ⟨piece, rfl⟩ : front <+: front' := prefix_of_size_le ⟨back, whole.symm⟩
    (List.prefix_append _ _) (Nat.le_of_lt lt)
  rw [position?_size] at hq
  rw [List.append_assoc] at hp mark
  rw [position?_size] at hp
  obtain rfl := Option.some.inj hp
  obtain rfl := Option.some.inj hq
  rw [withoutMark_append_of_markSize_le mark]
  cases piece with
  | nil =>
    rw [List.append_nil] at lt
    exact absurd lt (Nat.lt_irrefl _)
  | cons c piece => exact Position.before_behind_append _ _ _

/-! ## A position in its line -/

/-- Behind the first row, the start of a row is behind the mark. -/
theorem Source.Row.markSize_le {text before line behind : Text} (row : Row text before line behind)
    (later : before ≠ []) : (Source.ofText text).markSize ≤ before.size := by
  have same : (Source.ofText text).text = text := rfl
  rw [markSize, same]
  split
  · next first =>
    cases before with
    | nil => exact absurd rfl later
    | cons c before =>
      rw [row.whole] at first
      obtain rfl : c = byteOrderMark := Option.some.inj first
      exact Nat.le_add_right _ _
  · exact Nat.zero_le _

/-- **Where the columns of a row are counted from**, for an offset behind the mark. -/
theorem Source.Row.visibleStart_eq {text before line behind : Text} (row : Row text before line behind)
    {n : Nat} (mark : (Source.ofText text).markSize ≤ n) :
    (Source.ofText text).visibleStart (before.count '\n') before.size n
      = max before.size (Source.ofText text).markSize := by
  rcases row.starts with rfl | ⟨t, rfl⟩
  · rw [visibleStart, List.count_nil, if_pos rfl]
    exact Nat.min_eq_left (by rw [size_nil, Nat.zero_max]; exact mark)
  · have later : (t ++ ['\n']).count '\n' ≠ 0 := by simp
    rw [visibleStart, if_neg later, Nat.max_eq_left (row.markSize_le (by simp))]

/-- **A position is a place in its line**: the columns before it are the first characters of the
    line, and stand between the start of the line and the offset.  Behind the return that ends a
    line there is a position too, but it is not one in the line. -/
theorem take_line? {text : Text} {n : Nat} {p : Position}
    (mark : (Source.ofText text).markSize ≤ n)
    (found : (Source.ofText text).position? n = some p) :
    ∃ r, (Source.ofText text).lineRange? (p.line - 1) = some r ∧ (n ≤ r.stop →
      ∃ line, (Source.ofText text).line? (p.line - 1) = some line ∧ p.column - 1 ≤ line.length ∧
        slice? text (max r.start (Source.ofText text).markSize) n
          = some (line.take (p.column - 1))) := by
  obtain ⟨front, back, rfl, rfl⟩ := boundary_of_position? found
  obtain ⟨before, rest, behind, split, row⟩ := exists_row_of_boundary front back
  have place := row.position?
  rw [← split, found] at place
  obtain rfl := Option.some.inj place
  simp only [Nat.add_sub_cancel]
  refine ⟨_, row.lineRange?, fun inside => ?_⟩
  -- what stands before the offset is a part of the line without its return
  have part : lastLine front <+: dropReturn (lastLine front ++ rest) := by
    obtain ⟨return_, cut⟩ := exists_dropReturn (lastLine front ++ rest)
    refine prefix_of_size_le (List.prefix_append _ rest) ⟨return_, cut.symm⟩ ?_
    have le : front.size ≤ (before ++ dropReturn (lastLine front ++ rest)).size := inside
    conv at le => lhs; rw [split]
    rw [size_append, size_append] at le
    omega
  obtain ⟨more, longer⟩ : shown before (lastLine front)
      <+: shown before (dropReturn (lastLine front ++ rest)) := shown_prefix part
  have cut := row.slice?_visible
  rw [row.visibleStart_eq (by rw [← split]; exact mark), ← split] at cut
  refine ⟨_, row.line?, ?_, ?_⟩
  · rw [← longer, List.length_append]
    omega
  · rw [cut, ← longer, List.take_left]

/-! ## Positions -/

/-- **Positions**: an offset has one exactly when it is a boundary, the line counts the line feeds
    before it and the column the characters since the last of them, a byte-order mark aside.  From the
    end of the mark on, positions go up with the offsets, and each is the place in its line. -/
theorem position?_outcome (text : Text) :
    (∀ n, ((Source.ofText text).position? n).isSome = true ↔ Boundary text n) ∧
    (∀ front back, text = front ++ back → (Source.ofText text).position? front.size
      = some ⟨front.count '\n' + 1, (lastLine (withoutMark front)).length + 1⟩) ∧
    (∀ m n p q, (Source.ofText text).markSize ≤ m → m < n →
      (Source.ofText text).position? m = some p → (Source.ofText text).position? n = some q →
      p.Before q) ∧
    ∀ n p, (Source.ofText text).markSize ≤ n → (Source.ofText text).position? n = some p →
      ∃ r, (Source.ofText text).lineRange? (p.line - 1) = some r ∧ (n ≤ r.stop →
        ∃ line, (Source.ofText text).line? (p.line - 1) = some line ∧
          p.column - 1 ≤ line.length ∧
          slice? text (max r.start (Source.ofText text).markSize) n
            = some (line.take (p.column - 1))) := by
  refine ⟨isSome_position?_iff text, fun front back whole => ?_,
    fun m n p q mark lt hp hq => before_of_lt mark lt hp hq, fun n p mark found =>
    take_line? mark found⟩
  rw [whole, position?_size, Position.behind_eq, count_withoutMark]

end XmlGraft
