/-
  Rows — the line index of a text against a scan of the text.

  The index knows nothing but where the line feeds are.  It finds a row by halving, and the bytes of
  a row by the two feeds around it; both are compared here with the characters themselves.

  1. **Bisection** (`countBelow_eq`): halving an ascending array counts the entries below a number,
     whether or not the number is one of them.  The loop is specified once (`search_spec`), for any
     interval that the border lies in; the caller starts with the whole array, where that is nothing
     to prove.

  2. **Line feeds** (`row_ofText`): the row of an offset is the number of line feeds before it, so
     the start of the row is never behind the offset (`exists_lineStart?`).  An offset may lie
     inside a character; the characters that begin before it are those that count.

  3. **Rows** (`exists_row`): every row below the row count is a line of the text.  Two rows in a
     row are parted by their terminator alone (`Row.parted`), and behind the last one there is at
     most a return (`Row.last`).  The return is cut off where the range of a row is taken, so a row
     and its range have to be kept apart.

  4. **Agreement** (`index_agrees`): locations, starts and ranges, for every text and every row.
-/
import XmlGraft.Proofs.Graft.Anchors

namespace XmlGraft

open Markup Text

/-! ## Bisection -/

namespace Bisect

variable {entries : Array Nat} {n : Nat}

/-- **The loop finds the border** between the entries below `n` and the others.  What a caller
    supplies is that the border lies in the interval; each step keeps it there, since the array
    ascends. -/
theorem search_spec (sorted : entries.toList.Pairwise (· ≤ ·)) :
    ∀ (lo hi : Nat) (fits : hi ≤ entries.size), lo ≤ hi →
      (∀ j (inside : j < entries.size), j < lo → entries[j] < n) →
      (∀ j (inside : j < entries.size), hi ≤ j → n ≤ entries[j]) →
      search entries n lo hi fits ≤ entries.size ∧
        ∀ j (inside : j < entries.size), j < search entries n lo hi fits ↔ entries[j] < n := by
  have ascending {i j : Nat} (le : i ≤ j) (here : i < entries.size) (inside : j < entries.size) :
      entries[i] ≤ entries[j] := by
    rcases Nat.lt_or_eq_of_le le with lt | rfl
    · exact List.pairwise_iff_getElem.1 sorted i j _ inside lt
    · exact Nat.le_refl _
  intro lo hi fits
  fun_induction search entries n lo hi fits with
  | case1 lo hi fits open_range inside below ih =>
    -- the middle entry is below `n`, and so is everything before it
    intro _ before behind
    refine ih (by omega) (fun j inside' lt => ?_) behind
    have := ascending (show j ≤ (lo + hi) / 2 by omega) inside' inside
    omega
  -- the middle entry is not below `n`, and so is nothing behind it
  | case2 lo hi fits open_range inside not_below ih =>
    intro _ before behind
    refine ih (by omega) before fun j inside' le => ?_
    have := ascending le inside inside'
    omega
  | case3 lo hi fits closed =>
    intro le before behind
    obtain rfl : lo = hi := by omega
    refine ⟨fits, fun j inside => ⟨before j inside, fun lt => ?_⟩⟩
    -- the interval is empty, so that the border is where it has shrunk to
    by_contra not_before
    have := behind j inside (by omega)
    omega

end Bisect

/-- The border in an ascending array: the entries before it are below `n`, the others are not. -/
theorem countBelow_spec {entries : Array Nat} {n : Nat} (sorted : entries.toList.Pairwise (· ≤ ·)) :
    countBelow entries n ≤ entries.size ∧
      ∀ j (inside : j < entries.size), j < countBelow entries n ↔ entries[j] < n := by
  refine Bisect.search_spec sorted 0 entries.size (Nat.le_refl _) (Nat.zero_le _) ?_ ?_
  · intro j _ lt
    omega
  · intro j inside le
    omega

/-- **Halving counts the entries below a number**: they are the ones before the border. -/
theorem countBelow_eq {entries : Array Nat} {n : Nat} (sorted : entries.toList.Pairwise (· ≤ ·)) :
    countBelow entries n = entries.toList.countP (· < n) := by
  obtain ⟨le, border⟩ := countBelow_spec (n := n) sorted
  have before : (entries.toList.take (countBelow entries n)).countP (· < n)
      = countBelow entries n := by
    rw [List.countP_eq_length.2, List.length_take, Array.length_toList, Nat.min_eq_left le]
    intro x mem
    obtain ⟨j, inside, rfl⟩ := List.mem_take_iff_getElem.1 mem
    rw [Array.length_toList] at inside
    exact decide_eq_true ((border j (by omega)).1 (by omega))
  have behind : (entries.toList.drop (countBelow entries n)).countP (· < n) = 0 := by
    rw [List.countP_eq_zero]
    intro x mem
    obtain ⟨j, inside, rfl⟩ := List.mem_drop_iff_getElem.1 mem
    rw [Array.length_toList] at inside
    have not_before : ¬ countBelow entries n + j < countBelow entries n := by omega
    rw [border _ (by omega)] at not_before
    simpa using not_before
  conv => rhs; rw [← List.take_append_drop (countBelow entries n) entries.toList]
  rw [List.countP_append, before, behind, Nat.add_zero]

/-! ## Line feeds -/

namespace LineIndex

theorem le_of_mem_breaksFrom {o x : Nat} {t : Text} (h : x ∈ breaksFrom o t) : o ≤ x := by
  induction t generalizing o with
  | nil => cases h
  | cons c t ih =>
    rw [breaksFrom] at h
    split at h
    · rcases List.mem_cons.1 h with rfl | h
      · exact Nat.le_refl _
      · have := ih h
        omega
    · have := ih h
      omega

theorem pairwise_breaksFrom (o : Nat) (t : Text) : (breaksFrom o t).Pairwise (· ≤ ·) := by
  induction t generalizing o with
  | nil => exact .nil
  | cons c t ih =>
    rw [breaksFrom]
    split
    · refine List.pairwise_cons.2 ⟨fun x mem => ?_, ih _⟩
      have := le_of_mem_breaksFrom mem
      omega
    · exact ih _

/-- No line feed of a text stands before it. -/
theorem countP_breaksFrom_of_le {n o : Nat} (h : n ≤ o) (t : Text) :
    (breaksFrom o t).countP (· < n) = 0 := by
  rw [List.countP_eq_zero]
  intro x mem
  have := le_of_mem_breaksFrom mem
  simp only [decide_eq_true_eq]
  omega

/-- **The line feeds before a byte**, among their offsets and among the characters. -/
theorem countP_breaksFrom (o n : Nat) (t : Text) :
    (breaksFrom o t).countP (· < o + n) = (takeBytes t n).count '\n' := by
  induction t generalizing o n with
  | nil => cases n <;> rfl
  | cons c t ih =>
    rcases Nat.eq_zero_or_pos n with rfl | pos
    · rw [takeBytes_zero]
      exact countP_breaksFrom_of_le (Nat.le_refl _) _
    · -- a byte inside the first character has no feed before it but that character
      have rest : (breaksFrom (o + c.utf8Size) t).countP (· < o + n)
          = (takeBytes t (n - c.utf8Size)).count '\n' := by
        rcases Nat.lt_or_ge n c.utf8Size with inside | behind
        · rw [Nat.sub_eq_zero_of_le (Nat.le_of_lt inside), takeBytes_zero]
          exact countP_breaksFrom_of_le (by omega) _
        · rw [← ih, Nat.add_assoc, Nat.add_sub_cancel' behind]
      rw [breaksFrom, takeBytes_cons (Nat.pos_iff_ne_zero.1 pos)]
      by_cases feed : c = '\n'
      · rw [if_pos feed, List.countP_cons_of_pos (by simpa using pos), rest, feed,
          List.count_cons_self]
      · rw [if_neg feed, rest, List.count_cons_of_ne feed]

/-- **The row of an offset** is the number of line feeds before it. -/
theorem row_ofText (text : Text) (offset : Nat) :
    (ofText text).row offset = (takeBytes text offset).count '\n' := by
  have sorted : (ofText text).breaks.toList.Pairwise (· ≤ ·) := pairwise_breaksFrom 0 text
  rw [row, countBelow_eq sorted, ← countP_breaksFrom 0 offset text, Nat.zero_add]
  rfl

/-- There is one row more than there are line feeds. -/
theorem lineCount_ofText (text : Text) : (ofText text).lineCount = text.count '\n' + 1 := by
  rw [← length_breaksFrom 0 text]
  rfl

/-- Every offset is in one of the rows, also one past the end. -/
theorem row_lt_lineCount (text : Text) (offset : Nat) :
    (ofText text).row offset < (ofText text).lineCount := by
  have le := (countBelow_spec (n := offset) (pairwise_breaksFrom 0 text)).1
  exact Nat.lt_succ_of_le le

/-- There is a start exactly for the rows below the row count. -/
theorem isSome_lineStart?_iff {i : LineIndex} {row : Nat} :
    (i.lineStart? row).isSome = true ↔ row < i.lineCount := by
  cases row with
  | zero => exact iff_of_true rfl (Nat.succ_pos _)
  | succ row =>
    rw [lineStart?, Option.isSome_map, lineCount, Nat.succ_lt_succ_iff]
    exact Option.isSome_iff_ne_none.trans (by simp)

/-- **The row of an offset starts at or before it**, for the feed that ends the row before stands
    before the offset. -/
theorem exists_lineStart? (text : Text) (offset : Nat) :
    ∃ start, (ofText text).lineStart? ((ofText text).row offset) = some start ∧ start ≤ offset := by
  cases h : (ofText text).row offset with
  | zero => exact ⟨0, rfl, Nat.zero_le _⟩
  | succ row =>
    -- the feed that ends the row before is one of those before the offset
    obtain ⟨le, border⟩ := countBelow_spec (n := offset) (pairwise_breaksFrom 0 text)
    have inside : row < (ofText text).breaks.size := by
      have : (ofText text).row offset ≤ (ofText text).breaks.size := le
      omega
    have before : (ofText text).breaks[row] < offset := by
      refine (border row inside).1 ?_
      have : row < (ofText text).row offset := by omega
      exact this
    exact ⟨(ofText text).breaks[row] + 1, by rw [lineStart?, Array.getElem?_eq_getElem inside]; rfl,
      before⟩

/-- **The location of an offset** is where a scan of the text finds it, with the bytes since the
    start of the row as its column. -/
theorem location?_ofText {text : Text} {offset : Nat} (h : offset ≤ text.size) :
    ∃ start, (ofText text).lineStart? ((takeBytes text offset).count '\n') = some start ∧
      start ≤ offset ∧ (ofText text).location? offset
        = some ⟨offset, (takeBytes text offset).count '\n', offset - start⟩ := by
  obtain ⟨start, found, le⟩ := exists_lineStart? text offset
  have fits : offset ≤ (ofText text).size := h
  rw [row_ofText] at found
  refine ⟨start, found, le, ?_⟩
  rw [location?, if_pos fits, row_ofText, found]
  rfl

end LineIndex

/-! ## Rows -/

/-- What stands at the bytes behind the first piece. -/
theorem Text.slice?_of_eq {text before middle after : Text} (h : text = before ++ middle ++ after) :
    slice? text before.size (before ++ middle).size = some middle := by
  rw [h, size_append]
  exact slice?_middle before middle after

/-- What stands at the last bytes. -/
theorem Text.slice?_end {text before last : Text} (h : text = before ++ last) :
    slice? text before.size text.size = some last := by
  have cut := slice?_middle before last []
  rw [List.append_nil, ← size_append, ← h] at cut
  exact cut

/-- The return that may end a line, and nothing else, is cut off. -/
theorem Text.eq_dropReturn (line : Text) :
    line = dropReturn line ∧ line.getLast? ≠ some '\r' ∨ line = dropReturn line ++ ['\r'] := by
  rcases List.eq_nil_or_concat' line with rfl | ⟨front, last, rfl⟩
  · exact .inl ⟨rfl, by simp⟩
  · by_cases isReturn : last = '\r'
    · subst isReturn
      rw [dropReturn_append]
      exact .inr rfl
    · rw [dropReturn_concat isReturn, List.getLast?_concat]
      exact .inl ⟨rfl, by simpa using isReturn⟩

/-- What is left of a line without its return is at its front. -/
theorem Text.exists_dropReturn (line : Text) : ∃ rest, line = dropReturn line ++ rest := by
  rcases eq_dropReturn line with ⟨same, -⟩ | cut
  · exact ⟨[], by rw [List.append_nil]; exact same⟩
  · exact ⟨['\r'], cut⟩

/-- **The terminator of a line**: a line feed, or a return and a line feed. -/
theorem Text.exists_terminator (line : Text) :
    ∃ t, line ++ ['\n'] = dropReturn line ++ t ∧
      (t = ['\n'] ∧ (dropReturn line).getLast? ≠ some '\r' ∨ t = ['\r', '\n']) := by
  rcases eq_dropReturn line with ⟨same, no_return⟩ | cut
  · rw [← same]
    exact ⟨['\n'], rfl, .inl ⟨rfl, no_return⟩⟩
  · refine ⟨['\r', '\n'], ?_, .inr rfl⟩
    conv => lhs; rw [cut]
    rw [List.append_assoc]
    rfl

namespace Source

/-- **A row is followed by another one** when a line feed ends it. -/
theorem Row.next {text before line rest : Text} (h : Row text before line ('\n' :: rest)) :
    ∃ line' behind, Row text (before ++ line ++ ['\n']) line' behind := by
  obtain ⟨line', behind, split, no_feed, ends⟩ := exists_line rest
  refine ⟨line', behind, ?_, .inr ⟨before ++ line, rfl⟩, no_feed, ends⟩
  rw [h.whole, split]
  simp

/-- The rows before a row, and those behind it, by the line feeds around it. -/
theorem Row.count {text before line behind : Text} (h : Row text before line behind) :
    text.count '\n' = before.count '\n' + behind.count '\n' := by
  rw [h.whole, List.count_append, List.count_append, List.count_eq_zero.2 h.inside, Nat.add_zero]

/-- The line feed that ends a row is one more before the next. -/
theorem Row.count_next {text before line behind : Text} (h : Row text before line behind) :
    (before ++ line ++ ['\n']).count '\n' = before.count '\n' + 1 := by
  rw [List.count_append, List.count_append, List.count_eq_zero.2 h.inside]
  rfl

/-- **Every row below the row count is a line of the text.**  By induction on the row: the one
    before is ended by a line feed, since there are more to come. -/
theorem exists_row (text : Text) {row : Nat} (h : row < (LineIndex.ofText text).lineCount) :
    ∃ before line behind, Row text before line behind ∧ before.count '\n' = row := by
  induction row with
  | zero =>
    obtain ⟨line, behind, whole, no_feed, ends⟩ := exists_line text
    exact ⟨[], line, behind, ⟨whole, .inl rfl, no_feed, ends⟩, rfl⟩
  | succ row ih =>
    obtain ⟨before, line, behind, own, count⟩ := ih (by omega)
    rw [LineIndex.lineCount_ofText, own.count] at h
    rcases own.ends with rfl | ⟨rest, rfl⟩
    · rw [List.count_nil] at h
      omega
    · obtain ⟨line', behind', next⟩ := own.next
      exact ⟨_, line', behind', next, by rw [own.count_next, count]⟩

/-- **A row between its neighbours**: a range of bytes in the text that holds one line, parted from
    the next row by its terminator alone. -/
structure Delimited (text line : Text) (row : Nat) (r : ByteRange) : Prop where
  start : (LineIndex.ofText text).lineStart? row = some r.start
  first : row = 0 → r.start = 0
  proper : r.start ≤ r.stop
  bounded : r.stop ≤ text.size
  stands : slice? text r.start r.stop = some line
  no_feed : '\n' ∉ line
  /-- A line feed, or a return and a line feed, and the rows go up. -/
  parted : ∀ next, (Source.ofText text).lineRange? (row + 1) = some next → r.stop < next.start ∧
    (slice? text r.stop next.start = some ['\n'] ∧ line.getLast? ≠ some '\r' ∨
      slice? text r.stop next.start = some ['\r', '\n'])
  /-- Nothing but a return is behind the last row. -/
  last : row + 1 = (LineIndex.ofText text).lineCount →
    slice? text r.stop text.size = some [] ∧ line.getLast? ≠ some '\r' ∨
      slice? text r.stop text.size = some ['\r']

/-- There is a range exactly for the rows below the row count. -/
theorem isSome_lineRange?_iff {text : Text} {row : Nat} :
    ((Source.ofText text).lineRange? row).isSome = true ↔
      row < (LineIndex.ofText text).lineCount := by
  constructor
  · intro some_range
    obtain ⟨r, range⟩ := Option.isSome_iff_exists.1 some_range
    rw [lineRange?, Option.bind_eq_bind, Option.bind_eq_some_iff] at range
    obtain ⟨start, found, -⟩ := range
    exact LineIndex.isSome_lineStart?_iff.1 (Option.isSome_iff_exists.2 ⟨start, found⟩)
  · intro inside
    obtain ⟨before, line, behind, row, rfl⟩ := exists_row text inside
    rw [row.lineRange?]
    rfl

namespace Row

variable {text before line behind : Text} (row : Row text before line behind)

include row in
/-- Behind a row that is not the last one stands its terminator, and then the next row. -/
theorem parted {next : ByteRange}
    (found : (Source.ofText text).lineRange? (before.count '\n' + 1) = some next) :
    (before ++ dropReturn line).size < next.start ∧
    (slice? text (before ++ dropReturn line).size next.start = some ['\n'] ∧
        (dropReturn line).getLast? ≠ some '\r' ∨
      slice? text (before ++ dropReturn line).size next.start = some ['\r', '\n']) := by
  have below := isSome_lineRange?_iff.1 (Option.isSome_iff_exists.2 ⟨next, found⟩)
  rw [LineIndex.lineCount_ofText, row.count] at below
  rcases row.ends with rfl | ⟨rest, rfl⟩
  · rw [List.count_nil] at below
    omega
  · obtain ⟨line', behind', row'⟩ := row.next
    -- the next row starts behind the line feed
    rw [← row.count_next, row'.lineRange?] at found
    obtain rfl := Option.some.inj found
    show _ < (before ++ line ++ ['\n']).size ∧ _
    obtain ⟨t, split, kind⟩ := exists_terminator line
    have stop : before ++ line ++ ['\n'] = before ++ dropReturn line ++ t := by
      rw [List.append_assoc, split, List.append_assoc]
    have whole : text = before ++ dropReturn line ++ t ++ rest := by
      rw [row.whole, ← stop, List.append_assoc _ ['\n']]
      rfl
    have stands := slice?_of_eq whole
    have later : 0 < t.size := by
      rcases kind with ⟨rfl, -⟩ | rfl <;> decide
    rw [stop]
    refine ⟨by rw [size_append (before ++ _)]; omega, ?_⟩
    rcases kind with ⟨rfl, no_return⟩ | rfl
    · exact .inl ⟨stands, no_return⟩
    · exact .inr stands

include row in
/-- Behind the last row stands nothing but the return that may end its line. -/
theorem last (h : before.count '\n' + 1 = (LineIndex.ofText text).lineCount) :
    slice? text (before ++ dropReturn line).size text.size = some [] ∧
        (dropReturn line).getLast? ≠ some '\r' ∨
      slice? text (before ++ dropReturn line).size text.size = some ['\r'] := by
  rw [LineIndex.lineCount_ofText, row.count] at h
  rcases row.ends with rfl | ⟨rest, rfl⟩
  · rcases eq_dropReturn line with ⟨same, no_return⟩ | cut
    · have whole : text = before ++ dropReturn line ++ [] := by
        rw [row.whole, ← same]
      exact .inl ⟨slice?_end whole, by rw [← same]; exact no_return⟩
    · have whole : text = before ++ dropReturn line ++ ['\r'] := by
        rw [row.whole]
        conv => lhs; rw [cut]
        simp
      exact .inr (slice?_end whole)
  · -- a line feed behind it would make one row more
    rw [List.count_cons_self] at h
    omega

include row in
/-- **The range of a row** is delimited by its neighbours. -/
theorem delimited {r : ByteRange}
    (found : (Source.ofText text).lineRange? (before.count '\n') = some r) :
    Delimited text (dropReturn line) (before.count '\n') r := by
  rw [row.lineRange?] at found
  obtain rfl := Option.some.inj found
  obtain ⟨rest, whole⟩ := exists_dropReturn line
  have split : text = before ++ dropReturn line ++ (rest ++ behind) := by
    rw [row.whole]
    conv => lhs; rw [whole]
    simp
  refine ⟨row.lineStart?, fun first => ?_, ?_, ?_, slice?_of_eq split, fun mem => ?_,
    fun next found => row.parted found, row.last⟩
  · -- what stands before the first row ends in no line feed
    rcases row.starts with rfl | ⟨t, rfl⟩
    · rfl
    · rw [List.count_append] at first
      simp at first
  · show before.size ≤ (before ++ dropReturn line).size
    rw [size_append]
    omega
  · show (before ++ dropReturn line).size ≤ text.size
    rw [split, size_append (before ++ dropReturn line)]
    omega
  · refine row.inside ?_
    rw [whole]
    exact List.mem_append_left _ mem

end Row

end Source

/-! ## Agreement -/

/-- **The line index agrees with a scan of the text**: every offset up to the end has the row that
    the line feeds before it count, exactly the rows below the row count have a start and a range,
    and the ranges leave out nothing but the terminators between them. -/
theorem index_agrees (text : Text) :
    (∀ offset, (LineIndex.ofText text).location? offset = none ↔ text.size < offset) ∧
    (∀ offset location, (LineIndex.ofText text).location? offset = some location →
      location.offset = offset ∧ location.row = (takeBytes text offset).count '\n' ∧
      location.row < (LineIndex.ofText text).lineCount ∧
      ∃ start, (LineIndex.ofText text).lineStart? location.row = some start ∧
        start + location.column = offset) ∧
    (∀ row, (((LineIndex.ofText text).lineStart? row).isSome = true ↔
        row < (LineIndex.ofText text).lineCount) ∧
      (((Source.ofText text).lineRange? row).isSome = true ↔
        row < (LineIndex.ofText text).lineCount)) ∧
    ∀ row r, (Source.ofText text).lineRange? row = some r →
      ∃ line, Source.Delimited text line row r := by
  refine ⟨fun offset => ?_, fun offset location found => ?_, fun row =>
    ⟨LineIndex.isSome_lineStart?_iff, Source.isSome_lineRange?_iff⟩, fun row r found => ?_⟩
  · -- past the end there is no location, and up to the end there is one
    rcases Nat.lt_or_ge text.size offset with past | inside
    · have outside : ¬ offset ≤ (LineIndex.ofText text).size := Nat.not_le.2 past
      rw [LineIndex.location?, if_neg outside]
      exact iff_of_true rfl past
    · obtain ⟨start, -, -, found⟩ := LineIndex.location?_ofText inside
      rw [found]
      exact iff_of_false (by simp) (Nat.not_lt.2 inside)
  · have inside : offset ≤ text.size := by
      by_contra past
      have outside : ¬ offset ≤ (LineIndex.ofText text).size := past
      rw [LineIndex.location?, if_neg outside] at found
      cases found
    obtain ⟨start, starts, le, found'⟩ := LineIndex.location?_ofText inside
    obtain rfl := Option.some.inj (found'.symm.trans found)
    have below := LineIndex.row_lt_lineCount text offset
    rw [LineIndex.row_ofText] at below
    exact ⟨rfl, rfl, below, start, starts, Nat.add_sub_cancel' le⟩
  · have below := Source.isSome_lineRange?_iff.1 (Option.isSome_iff_exists.2 ⟨r, found⟩)
    obtain ⟨before, line, behind, own, rfl⟩ := Source.exists_row text below
    exact ⟨_, own.delimited found⟩

end XmlGraft
