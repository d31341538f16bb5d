/-
  Splitting — a text that is put together from lines, and marks in it.

  Comments are laid out line by line and put together again, and the graft searches a rendered text
  for its marker.  Both need to know where in a text that was joined from pieces a separator or a
  mark can stand, and where it cannot.

  1. **Lines** (`splitOn_append`, `of_mem_splitOn`): splitting takes a text apart at its separators.
     A piece holds no separator, and it stands in the text as it is.

  2. **Returns** (`dropReturn`): the carriage return that may end a line is cut off, and only that
     one.  Behind another character the rest of the line is cut as a line of its own
     (`dropReturn_append_cons`), so that an opening in front of it changes nothing.

  3. **Marks** (`infix_of_infix_append`, `endsFirst_iff`): a mark does not reach over what it has no
     part in, so that it stands on one side of any separator; and the end of a comment does not
     overlap itself, so that a body which does not hold it ends at the one that was written behind
     it.
-/
import XmlGraft.Proofs.Text.Pieces

namespace XmlGraft.Text

/-! ## Splitting -/

/-- The text in front of the first separator is the first piece, and what follows it is split for
    itself. -/
theorem splitOn_append {sep : Char} {s : Text} (h : sep ∉ s) (t : Text) :
    splitOn sep (s ++ sep :: t) = s :: splitOn sep t := by
  induction s with
  | nil => rw [List.nil_append, splitOn, if_pos rfl]
  | cons c s ih =>
    obtain ⟨other, rest⟩ := List.ne_and_not_mem_of_not_mem_cons h
    rw [List.cons_append, splitOn, if_neg (Ne.symm other), ih rest]

theorem splitOn_of_not_mem {sep : Char} {s : Text} (h : sep ∉ s) : splitOn sep s = [s] := by
  induction s with
  | nil => rfl
  | cons c s ih =>
    obtain ⟨other, rest⟩ := List.ne_and_not_mem_of_not_mem_cons h
    rw [splitOn, if_neg (Ne.symm other), ih rest]

/-- A piece holds no separator, and it is a piece of the text.  That the first one begins the text
    is what the induction needs: it is the piece that the next character is put in front of. -/
theorem of_mem_splitOn {sep : Char} {t : Text} :
    splitOn sep t ≠ [] ∧ (∀ piece ∈ (splitOn sep t).head?, sep ∉ piece ∧ piece <+: t) ∧
      ∀ piece ∈ splitOn sep t, sep ∉ piece ∧ piece <:+: t := by
  induction t with
  -- at a separator a new piece begins, which is empty so far
  | nil => simp [splitOn]
  | cons c t ih =>
    obtain ⟨some_piece, head, all⟩ := ih
    -- another character is put in front of the first piece, which therefore has to be there
    rw [splitOn]
    split
    · refine ⟨List.cons_ne_nil _ _, fun piece h => ?_, fun piece h => ?_⟩
      · cases h
        exact ⟨List.not_mem_nil, List.nil_prefix⟩
      · rcases List.mem_cons.1 h with rfl | h
        · exact ⟨List.not_mem_nil, List.nil_infix⟩
        · obtain ⟨no_sep, inside⟩ := all piece h
          exact ⟨no_sep, inside.trans (List.suffix_cons _ _).isInfix⟩
    · next other =>
      split
      · next nothing => exact absurd nothing some_piece
      · next first more pieces =>
        obtain ⟨no_sep, front⟩ := head first (by rw [pieces]; rfl)
        have own : sep ∉ c :: first ∧ c :: first <+: c :: t :=
          ⟨List.not_mem_cons_of_ne_of_not_mem (Ne.symm other) no_sep, (List.prefix_cons_inj c).2 front⟩
        refine ⟨List.cons_ne_nil _ _, fun piece h => ?_, fun piece h => ?_⟩
        · cases h
          exact own
        · rcases List.mem_cons.1 h with rfl | h
          · exact ⟨own.1, own.2.isInfix⟩
          · obtain ⟨no_sep, inside⟩ := all piece (by rw [pieces]; exact List.mem_cons_of_mem _ h)
            exact ⟨no_sep, inside.trans (List.suffix_cons _ _).isInfix⟩

/-- The text without a suffix, or the text itself: what is left, with or without the suffix behind
    it, is the text. -/
theorem getD_dropEnd? (t suffix : Text) :
    (dropEnd? t suffix).getD t ++ suffix = t ∨ (dropEnd? t suffix).getD t = t := by
  rw [dropEnd?]
  split
  · next ends =>
    obtain ⟨front, rfl⟩ := List.isSuffixOf_iff_suffix.1 ends
    left
    rw [Option.getD_some, List.length_append, Nat.add_sub_cancel, List.take_left]
  · exact .inr rfl

/-- A suffix that was put behind is cut off again. -/
theorem dropEnd?_append (t suffix : Text) : dropEnd? (t ++ suffix) suffix = some t := by
  rw [dropEnd?, if_pos (List.isSuffixOf_iff_suffix.2 (List.suffix_append _ _)), List.length_append,
    Nat.add_sub_cancel, List.take_left]

theorem dropStart?_append (start t : Text) : dropStart? (start ++ t) start = some t := by
  rw [dropStart?, if_pos (List.isPrefixOf_iff_prefix.2 (List.prefix_append _ _)), List.drop_left]

/-- What is left of a text without its start is what has to be put behind the start to give the
    text. -/
theorem dropStart?_eq_some_iff {t start rest : Text} :
    dropStart? t start = some rest ↔ t = start ++ rest := by
  constructor
  · intro h
    rw [dropStart?] at h
    split at h
    · next begins =>
      rw [← Option.some.inj h]
      exact List.prefix_iff_eq_append.1 (List.isPrefixOf_iff_prefix.1 begins) |>.symm
    · cases h
  · rintro rfl
    exact dropStart?_append start rest

/-! ## Carriage returns -/

/-- A line without the carriage return that may end it. -/
def dropReturn (line : Text) : Text := (dropEnd? line ['\r']).getD line

/-- A line without carriage returns is as it was, since what was cut off would have been one. -/
theorem dropReturn_of_not_mem {line : Text} (h : '\r' ∉ line) : dropReturn line = line := by
  rcases getD_dropEnd? line ['\r'] with cut | same
  · rw [← cut] at h
    exact absurd (List.mem_append_right _ (List.mem_singleton_self _)) h
  · exact same

theorem dropReturn_append (line : Text) : dropReturn (line ++ ['\r']) = line := by
  rw [dropReturn, dropEnd?_append, Option.getD_some]

/-- A line that ends in another character stays as it is. -/
theorem dropReturn_concat {c : Char} (other : c ≠ '\r') (line : Text) :
    dropReturn (line ++ [c]) = line ++ [c] := by
  rw [dropReturn, dropEnd?, if_neg, Option.getD_none]
  rw [List.isSuffixOf_iff_suffix]
  rintro ⟨before, e⟩
  obtain ⟨-, e⟩ := List.append_inj' e rfl
  exact other (List.singleton_inj.1 e).symm

/-- What stands before another character stays: the return can only be behind it. -/
theorem dropReturn_append_cons (front : Text) {c : Char} (other : c ≠ '\r') (line : Text) :
    dropReturn (front ++ c :: line) = front ++ c :: dropReturn line := by
  rcases List.eq_nil_or_concat line with rfl | ⟨line, last, rfl⟩
  · rw [dropReturn_concat other]
    rfl
  · rw [List.concat_eq_append, ← List.cons_append, ← List.append_assoc]
    -- the line's own last character decides, with or without the text in front
    by_cases isReturn : last = '\r'
    · rw [isReturn, dropReturn_append, dropReturn_append]
    · rw [dropReturn_concat isReturn, dropReturn_concat isReturn]
      simp only [List.append_assoc, List.cons_append]

/-! ## Pieces of a text -/

/-- A mark at the front that a character has no part in ends before that character. -/
theorem prefix_of_prefix_append {m s t : Text} {c : Char} (apart : c ∉ m)
    (h : m <+: s ++ c :: t) : m <+: s := by
  induction s generalizing m with
  | nil =>
    rcases List.prefix_cons_iff.1 h with rfl | ⟨m, rfl, -⟩
    · exact List.nil_prefix
    · exact absurd List.mem_cons_self apart
  | cons d s ih =>
    rcases List.prefix_cons_iff.1 h with rfl | ⟨m, rfl, more⟩
    · exact List.nil_prefix
    · exact (List.prefix_cons_inj d).2 (ih (fun hc => apart (List.mem_cons_of_mem _ hc)) more)

/-- A mark that a character has no part in stands on one side of it.  By induction on the text
    before the character: either the mark begins here, and ends before it, or it stands further
    behind. -/
theorem infix_of_infix_cons {m s t : Text} {c : Char} (apart : c ∉ m) (h : m <:+: s ++ c :: t) :
    m <:+: s ∨ m <:+: t := by
  induction s with
  | nil =>
    rcases List.infix_cons_iff.1 h with front | inside
    · exact .inl (prefix_of_prefix_append apart (s := []) front).isInfix
    · exact .inr inside
  | cons d s ih =>
    rcases List.infix_cons_iff.1 h with front | inside
    · exact .inl (prefix_of_prefix_append apart (s := d :: s) front).isInfix
    · exact (ih inside).imp (fun here => here.trans (List.suffix_cons _ _).isInfix) id

/-- **A mark that a separator has no part in stands on one side of it.**  The separator must not
    be empty, for a mark may well reach over the place where two texts meet. -/
theorem infix_of_infix_append {m s sep t : Text} (some_sep : sep ≠ []) (apart : ∀ c ∈ sep, c ∉ m)
    (h : m <:+: s ++ (sep ++ t)) : m <:+: s ∨ m <:+: t := by
  induction sep generalizing s with
  | nil => exact absurd rfl some_sep
  | cons c sep ih =>
    -- the separator is passed one character at a time; between two of them there is no room for the
    -- mark
    rcases infix_of_infix_cons (apart c List.mem_cons_self) h with front | rest
    · exact .inl front
    · cases sep with
      | nil => exact .inr rest
      | cons d sep =>
        rcases ih (List.cons_ne_nil _ _) (fun e he => apart e (List.mem_cons_of_mem _ he)) (s := []) rest
          with nothing | back
        · exact .inl (nothing.trans List.nil_infix)
        · exact .inr back

/-- A comment ends first at its end when its body does not hold the last delimiter: the delimiter
    does not overlap itself but by its dashes, which cannot begin it. -/
theorem endsFirst_iff {body : Text} :
    EndsFirst ['-', '-', '>'] body ↔ ¬ ['-', '-', '>'] <:+: body := by
  constructor
  · rintro first ⟨before, after, rfl⟩
    refine first before.length (by simp only [List.length_append, List.length_cons]; omega) ?_
    simp [List.append_assoc]
  · intro none j hj here
    refine none ?_
    obtain ⟨rest, whole⟩ := here
    -- the delimiter cannot reach into the one behind the body
    have fits : (body.drop j) ++ ['-', '-', '>'] = ['-', '-', '>'] ++ rest := by
      rw [whole, List.drop_append_of_le_length (Nat.le_of_lt hj)]
    have some_text : body.drop j ≠ [] := by
      rw [Ne, List.drop_eq_nil_iff]
      omega
    refine List.IsInfix.trans ?_ (List.drop_suffix j body).isInfix
    generalize body.drop j = s at fits some_text
    -- with fewer than three characters of the body left, the delimiter would have to overlap itself
    match s, some_text with
    | [a], _ => simp at fits
    | [a, b], _ => simp at fits
    | a :: b :: c :: s, _ =>
      simp only [List.cons_append, List.nil_append, List.cons.injEq] at fits
      obtain ⟨rfl, rfl, rfl, -⟩ := fits
      exact (List.prefix_append ['-', '-', '>'] s).isInfix

end XmlGraft.Text
