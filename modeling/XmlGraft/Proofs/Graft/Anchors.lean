/-
  Anchors — the indentation of the element that a graft stands in.

  It is looked up by the position of the element: the row is found among the line feeds, its bytes
  are cut out of the text, and the blanks at its front are taken as far as the column.  What stands
  behind the tag has no part in it.

  All of this is done in numbers: a row, an offset, a column.  What is proved about it is about
  texts.  A row of a text is a way to cut the text in three (`Source.Row`), an offset is the size of
  what stands before, and a column the length of the last line before the tag.

  1. **Rows** (`line?_of_row`): the bytes of a row are the characters between two line feeds,
     without the return at the end and without a byte-order mark.  A mark is in the text, and its
     bytes are counted, but it takes no column; this matters in the first row only.

  2. **Base indentation** (`baseIndent_behind`): at the position behind a text it is the blanks that
     the last line of the text begins with.  Blanks behind the tag cannot be among them, since the
     tag is no blank.

  3. **Elements** (`exists_anchor`): so it depends on the text before the element alone, and stays
     the same whatever an edit does to the element.

  The column is counted in characters and the row is cut out in bytes.  They meet in the text before
  the element only, which is why every lemma here takes that text as the thing to speak about.
-/
import XmlGraft.Proofs.Edit.Places
import XmlGraft.Proofs.Markup.Extents
import XmlGraft.Proofs.Text.Splitting

namespace XmlGraft

open Markup Text

/-! ## Rows -/

namespace LineIndex

theorem breaksFrom_append (o : Nat) (s t : Text) :
    breaksFrom o (s ++ t) = breaksFrom o s ++ breaksFrom (o + s.size) t := by
  induction s generalizing o with
  | nil => rfl
  | cons c s ih =>
    rw [List.cons_append, breaksFrom, breaksFrom, ih, size_cons, Nat.add_assoc]
    split <;> rfl

theorem length_breaksFrom (o : Nat) (t : Text) : (breaksFrom o t).length = t.count '\n' := by
  induction t generalizing o with
  | nil => rfl
  | cons c t ih =>
    rw [breaksFrom]
    by_cases feed : c = '\n'
    · rw [if_pos feed, feed, List.length_cons, ih, List.count_cons_self]
    · rw [if_neg feed, ih, List.count_cons_of_ne feed]

theorem breaksFrom_of_not_mem {t : Text} (h : '\n' ∉ t) (o : Nat) : breaksFrom o t = [] := by
  rw [← List.length_eq_zero_iff, length_breaksFrom, List.count_eq_zero]
  exact h

end LineIndex

/-- **A row of a text**: a line between line feeds, or between a line feed and an end of the text. -/
structure Source.Row (text before line behind : Text) : Prop where
  whole : text = before ++ line ++ behind
  starts : before = [] ∨ ∃ t, before = t ++ ['\n']
  inside : '\n' ∉ line
  ends : behind = [] ∨ ∃ t, behind = '\n' :: t

namespace Source.Row

variable {text before line behind : Text} (row : Row text before line behind)

include row in
/-- **A row begins behind the line feed** that the rows before it end with, or at the beginning of
    the text. -/
theorem lineStart? : (LineIndex.ofText text).lineStart? (before.count '\n') = some before.size := by
  rcases row.starts with rfl | ⟨t, rfl⟩
  · rfl
  · have feeds : (t ++ ['\n']).count '\n' = t.count '\n' + 1 := by simp
    have index : LineIndex.breaksFrom 0 text = LineIndex.breaksFrom 0 t
        ++ t.size :: LineIndex.breaksFrom (t.size + 1) (line ++ behind) := by
      rw [row.whole, List.append_assoc, List.append_assoc, LineIndex.breaksFrom_append, Nat.zero_add]
      rfl
    have here : (LineIndex.breaksFrom 0 text)[t.count '\n']? = some t.size := by
      rw [index, ← LineIndex.length_breaksFrom 0 t, List.getElem?_append_right (Nat.le_refl _),
        Nat.sub_self]
      rfl
    rw [feeds, LineIndex.lineStart?, LineIndex.ofText, List.getElem?_toArray, here, Option.map_some,
      size_append]
    rfl

include row in
/-- The line feed that ends the row, or the end of the text. -/
theorem stop : ((LineIndex.ofText text).breaks[before.count '\n']?).getD (LineIndex.ofText text).size
    = (before ++ line).size := by
  have index : LineIndex.breaksFrom 0 text
      = LineIndex.breaksFrom 0 before ++ LineIndex.breaksFrom (before ++ line).size behind := by
    rw [row.whole, LineIndex.breaksFrom_append, LineIndex.breaksFrom_append,
      LineIndex.breaksFrom_of_not_mem row.inside, List.append_nil, Nat.zero_add]
  have count := LineIndex.length_breaksFrom 0 before
  rw [LineIndex.ofText, List.getElem?_toArray, index, ← count, List.getElem?_append_right (Nat.le_refl _),
    Nat.sub_self]
  rcases row.ends with rfl | ⟨t, rfl⟩
  · rw [row.whole, List.append_nil]
    rfl
  · rfl

include row in
/-- **The bytes of a row**, without the carriage return that may end it.  A row is given by the
    text before it, whose line feeds are counted; its number is nothing else. -/
theorem lineRange? : (Source.ofText text).lineRange? (before.count '\n')
    = some ⟨before.size, (before ++ dropReturn line).size⟩ := by
  have body : text.slice? before.size (before ++ line).size = some line := by
    rw [row.whole, size_append]
    exact slice?_middle before line behind
  have source : (Source.ofText text).index = LineIndex.ofText text := rfl
  have same : (Source.ofText text).text = text := rfl
  rw [Source.lineRange?, source, same, row.lineStart?]
  simp only [Option.bind_eq_bind, Option.bind_some, row.stop, body]
  -- a row may be empty; otherwise its last character is looked at, which may be a return
  rcases List.eq_nil_or_concat' line with rfl | ⟨front, last, rfl⟩
  · rfl
  · rw [List.getLast?_concat]
    by_cases isReturn : last = '\r'
    · rw [isReturn, if_pos rfl, dropReturn_append]
      simp only [size_append]
      rfl
    · rw [if_neg (by simpa using isReturn), dropReturn_concat isReturn]
      rfl

end Source.Row

/-- **A row without what does not count for columns**: the return that may end it, and the
    byte-order mark before the text.  The mark is only in the first row, where three bytes are
    left out. -/
theorem line?_of_row {mark body before line behind : Text} (hm : IsMark mark) (hb : Unmarked body)
    (row : Source.Row body before line behind) :
    (Source.ofText (mark ++ body)).line? (before.count '\n') = some (dropReturn line) := by
  have same : (Source.ofText (mark ++ body)).text = mark ++ body := rfl
  have size := (withoutMark_append hm hb).2
  have feeds : mark.count '\n' = 0 := by rcases hm with rfl | rfl <;> rfl
  have cut : (mark ++ body).slice? (mark ++ before).size (mark ++ before ++ dropReturn line).size
      = some (dropReturn line) := by
    obtain ⟨rest, whole⟩ : ∃ rest, line = dropReturn line ++ rest := by
      rcases getD_dropEnd? line ['\r'] with cut | same
      · exact ⟨_, cut.symm⟩
      · exact ⟨[], by rw [List.append_nil]; exact same.symm⟩
    have pieces : mark ++ body = (mark ++ before) ++ dropReturn line ++ (rest ++ behind) := by
      rw [row.whole]
      conv => lhs; rw [whole]
      simp only [List.append_assoc]
    rw [pieces, size_append (mark ++ before)]
    exact slice?_middle _ _ _
  rcases row.starts with rfl | ⟨t, rfl⟩
  · -- the mark belongs to the first row, whose columns are counted behind it
    have first : Source.Row (mark ++ body) [] (mark ++ line) behind := by
      refine ⟨by rw [row.whole]; simp, .inl rfl, ?_, row.ends⟩
      rw [List.mem_append, not_or, ← List.count_eq_zero]
      exact ⟨feeds, row.inside⟩
    have kept : dropReturn (mark ++ line) = mark ++ dropReturn line := by
      rcases hm with rfl | rfl
      · rfl
      · exact dropReturn_append_cons [] (by decide) line
    have start : (Source.ofText (mark ++ body)).visibleStart 0 0 (mark ++ dropReturn line).size
        = mark.size := by
      rw [Source.visibleStart, if_pos rfl, size, size_append]
      omega
    have range := first.lineRange?
    rw [List.nil_append, kept] at range
    rw [Source.line?, range]
    simp only [Option.bind_eq_bind, Option.bind_some, same]
    rw [List.append_nil] at cut
    rw [← cut, ← start]
    rfl
  · -- a later row begins behind a line feed, so the mark is before it
    have later : Source.Row (mark ++ body) (mark ++ (t ++ ['\n'])) line behind := by
      refine ⟨by rw [row.whole]; simp, .inr ⟨mark ++ t, by simp⟩, row.inside, row.ends⟩
    have range := later.lineRange?
    rw [List.count_append, feeds, Nat.zero_add] at range
    have not_first : (t ++ ['\n']).count '\n' ≠ 0 := by simp
    rw [Source.line?, range]
    simp only [Option.bind_eq_bind, Option.bind_some, same, Source.visibleStart, if_neg not_first]
    exact cut

/-! ## Base indentation -/

/-- The characters behind the last line feed. -/
def lastLine (t : Text) : Text := (t.reverse.takeWhile (· != '\n')).reverse

/-- A text is what stands before its last line, and that line. -/
theorem exists_lastLine (t : Text) :
    ∃ before, t = before ++ lastLine t ∧ (before = [] ∨ ∃ s, before = s ++ ['\n']) ∧
      '\n' ∉ lastLine t := by
  refine ⟨(t.reverse.dropWhile (· != '\n')).reverse, ?_, ?_, ?_⟩
  · rw [lastLine, ← List.reverse_append, List.takeWhile_append_dropWhile, List.reverse_reverse]
  · cases rest : t.reverse.dropWhile (· != '\n') with
    | nil => exact .inl rfl
    | cons c s =>
      have stop := (eq_of_dropWhile_eq_cons rest).1
      obtain rfl : c = '\n' := by simpa using stop
      exact .inr ⟨s.reverse, by rw [List.reverse_cons]⟩
  · intro mem
    have other := List.mem_takeWhile_imp (List.mem_reverse.1 mem)
    exact absurd other (by decide)

/-- A line of a text ends at the next line feed, or with the text. -/
theorem exists_line (t : Text) :
    ∃ line behind, t = line ++ behind ∧ '\n' ∉ line ∧ (behind = [] ∨ ∃ s, behind = '\n' :: s) := by
  refine ⟨t.takeWhile (· != '\n'), t.dropWhile (· != '\n'), List.takeWhile_append_dropWhile.symm,
    fun mem => absurd (List.mem_takeWhile_imp mem) (by decide), ?_⟩
  cases rest : t.dropWhile (· != '\n') with
  | nil => exact .inl rfl
  | cons c s =>
    have stop := (eq_of_dropWhile_eq_cons rest).1
    obtain rfl : c = '\n' := by simpa using stop
    exact .inr ⟨s, rfl⟩

/-- The blanks of a line, as far as they stand in its first part. -/
theorem take_leadingBlanks (t rest : Text) :
    (leadingBlanks (t ++ rest)).take t.length = leadingBlanks t := by
  induction t with
  | nil => rfl
  | cons c t ih =>
    rw [leadingBlanks] at ih ⊢
    rw [leadingBlanks] at ih ⊢
    rw [List.cons_append, List.takeWhile_cons, List.takeWhile_cons]
    split
    · rw [List.length_cons, List.take_succ_cons, ih]
    · rfl

/-- **The line of a tag** consists of what stands before the tag on it, the tag, and whatever
    comes then.  The tag begins with a bracket, so the line is not cut off before it as a return
    would be. -/
theorem exists_line?_behind {mark body before rest : Text} (hm : IsMark mark) (hb : Unmarked body)
    (whole : body = before ++ '<' :: rest) :
    ∃ tail, (Source.ofText (mark ++ body)).line? (before.count '\n')
      = some (lastLine before ++ '<' :: tail) := by
  obtain ⟨front, split, starts, no_feed⟩ := exists_lastLine before
  obtain ⟨line, behind, tail, no_feed', ends⟩ := exists_line rest
  -- from the last line feed before the tag to the first behind it
  have row : Source.Row body front (lastLine before ++ '<' :: line) behind := by
    refine ⟨?_, starts, ?_, ends⟩
    · rw [whole, tail]
      conv => lhs; rw [split]
      simp
    · simp [no_feed, no_feed']
  have count : before.count '\n' = front.count '\n' := by
    conv => lhs; rw [split]
    rw [List.count_append, List.count_eq_zero.2 no_feed, Nat.add_zero]
  refine ⟨dropReturn line, ?_⟩
  rw [count, line?_of_row hm hb row, dropReturn_append_cons _ (by decide)]

/-- The column behind a text is counted on its last line. -/
theorem Position.behind_eq (t : Text) :
    Position.behind t = ⟨t.count '\n' + 1, (lastLine t).length + 1⟩ := by
  rw [lastLine, List.length_reverse]
  rfl

/-- **Base indentation behind a text**, where a tag follows: the blanks at the front of the last
    line of the text.  The column of the tag is where these blanks are cut off at the latest. -/
theorem baseIndent_behind {mark body before rest : Text} (hm : IsMark mark) (hb : Unmarked body)
    (whole : body = before ++ '<' :: rest) :
    (Source.ofText (mark ++ body)).baseIndent (.behind before) = leadingBlanks (lastLine before) := by
  obtain ⟨tail, line⟩ := exists_line?_behind hm hb whole
  rw [Source.baseIndent, Position.behind_eq]
  simp only [Nat.add_sub_cancel, line, Option.getD_some]
  exact take_leadingBlanks _ _

/-! ## Elements -/

/-- What is cut off at a byte is the front of the text. -/
theorem Text.prefix_of_before? {t x : Text} {n : Nat} (h : before? t n = some x) : x <+: t := by
  induction t generalizing n x with
  | nil =>
    cases n with
    | zero => cases h; exact List.prefix_rfl
    | succ n => cases h
  | cons c t ih =>
    cases n with
    | zero => cases h; exact List.nil_prefix
    | succ n =>
      by_cases fits : c.utf8Size ≤ n + 1
      · rw [before?_cons fits, Option.map_eq_some_iff] at h
        obtain ⟨y, found, rfl⟩ := h
        exact List.cons_prefix_cons.2 ⟨rfl, ih found⟩
      · simp [before?, fits] at h

/-- What is cut out behind a text stands there. -/
theorem Text.prefix_of_slice? {before rest x : Text} {stop : Nat}
    (h : slice? (before ++ rest) before.size stop = some x) : x <+: rest := by
  rw [slice?, before?_size] at h
  simp only [Option.bind_eq_bind, Option.bind_some, List.drop_left] at h
  split at h
  · exact prefix_of_before? h
  · cases h

/-- A byte-order mark is at the front of a text or nowhere, so what stands behind does not bear on
    it. -/
theorem withoutMark_append_cons (t : Text) {c : Char} (other : c ≠ byteOrderMark) (rest : Text) :
    withoutMark (t ++ c :: rest) = withoutMark t ++ c :: rest := by
  cases t with
  | nil => exact withoutMark_of_unmarked fun first => other (Option.some.inj first)
  | cons d t =>
    rw [List.cons_append, withoutMark, withoutMark]
    split <;> rfl

/-- **The anchor**: an element that was read is where the text before it ends, and its base indentation
    is what the last line of that text begins with. -/
theorem exists_anchor {text : Text} {d : Document} (one : AtMostOneMark text)
    (parsed : Document.parse text = .ok d) {p : List Nat} {a : Element} {left right : Text}
    (found : d.root.below? p = some a) (around : Element.Around left right d.root p) :
    a.position? = some (.behind (withoutMark (d.prolog ++ left))) ∧
      d.source.baseIndent (.behind (withoutMark (d.prolog ++ left)))
        = leadingBlanks (lastLine (withoutMark (d.prolog ++ left))) := by
  have read := Document.read_of_parse one parsed
  have whole : text = (d.prolog ++ left) ++ (a.written ++ right ++ d.epilog) := by
    rw [← read.written, Document.written, around.written found]
    simp only [List.append_assoc]
  -- the tag stands where it was read, behind the text before it
  obtain ⟨o, origin, recorded⟩ :=
    (Element.every_below? (Document.recordedIn_of_parse one parsed) found).own
  have start : o.opening.range.start = (d.prolog ++ left).size := by
    have range := congrArg ByteRange.start (around.readAt found read.tree).element.2.1
    rw [Element.range, origin, Option.map_some, Option.getD_some, ← size_append] at range
    exact range
  constructor
  · have past : text.takeBytes (d.prolog ++ left).size = d.prolog ++ left := by
      rw [whole]
      exact takeBytes_size _ _
    rw [Element.position?, origin, Option.bind_some, recorded.position, start, Position.ofByte, past]
  · obtain ⟨rest, begins⟩ : ∃ rest, text = (d.prolog ++ left) ++ '<' :: rest := by
      have stands := recorded.opening
      rw [Excerpt.StandsIn, start, whole] at stands
      obtain ⟨rest, same⟩ := recorded.begins.trans (Text.prefix_of_slice? stands)
      exact ⟨_, by rw [whole, ← same]; rfl⟩
    obtain ⟨-, -, -, -, source, -⟩ := Document.exists_content_of_parse one parsed
    -- the position was counted without the mark, and the row is looked up with it
    obtain ⟨mark, body, rfl, hm, hb⟩ := one.split
    have cut := (withoutMark_append hm hb).1
    rw [begins, withoutMark_append_cons _ (by decide)] at cut
    rw [source]
    exact baseIndent_behind hm hb cut.symm

end XmlGraft
