/-
  Pieces — what cutting, trimming and searching do to a text that is put together from pieces.

  The writer puts a document together from pieces and the reader takes it apart again, by numbers of
  bytes, by trimming and by searching for delimiters.  The later modules speak of pieces only, in
  the form `before ++ middle ++ after`; this one says what each of the three does to a text in that
  form.

  1. **Bytes** (`takeBytes_size`, `dropBytes_size`, `slice?_middle`): a text cut at the length of
     its first piece falls apart into its pieces.  `takeBytes` and `dropBytes` count bytes and move
     by characters, and a piece ends on a character, so that each induction over a piece uses up
     exactly the bytes of one character; that a character has at least one keeps it from standing
     still.

  2. **Trimming** (`eq_trim`): a text is its trimmed form between spaces, and what is left begins
     and ends with no space.  All else about trimming is read off from this one equation, so that
     the two ends are looked at only once.  Trimming a second time takes away nothing more
     (`trim_trim`), which is what makes rendered text stay as it is.

  3. **Searching** (`cut?_eq_some_iff`): a cut is at the first place where the mark stands, and that
     it is the first depends on the text before the cut and on the mark alone (`EndsFirst`).  The
     reader's cut at the end of a comment or a section is therefore known from the piece that was
     written, whatever comes behind it.
-/
import Mathlib.Data.List.TakeWhile
import XmlGraft.Text.Blank

namespace XmlGraft.Text

/-! ## Bytes -/

@[simp] theorem takeBytes_zero (t : Text) : takeBytes t 0 = [] := by cases t <;> rfl

@[simp] theorem dropBytes_zero (t : Text) : dropBytes t 0 = t := by cases t <;> rfl

/-- As long as there are bytes left to take, a character is taken whole, also where fewer bytes
    are left than it has. -/
theorem takeBytes_cons {c : Char} {t : Text} {n : Nat} (h : n ≠ 0) :
    takeBytes (c :: t) n = c :: takeBytes t (n - c.utf8Size) := by
  cases n with
  | zero => exact absurd rfl h
  | succ n => rfl

/-- As long as there are bytes left to pass, a character is passed whole. -/
theorem dropBytes_cons {c : Char} {t : Text} {n : Nat} (h : n ≠ 0) :
    dropBytes (c :: t) n = dropBytes t (n - c.utf8Size) := by
  cases n with
  | zero => exact absurd rfl h
  | succ n => rfl

/-- The bytes of the first piece are the first piece: no character of it is left over, for they
    use up the bytes one after the other. -/
theorem takeBytes_size (s t : Text) : takeBytes (s ++ t) s.size = s := by
  induction s with
  | nil => simp
  | cons c s ih =>
    have := c.utf8Size_pos
    rw [List.cons_append, size_cons, takeBytes_cons (by omega), Nat.add_sub_cancel_left, ih]

/-- What comes behind the bytes of the first piece is the second, from its first character on. -/
theorem dropBytes_size (s t : Text) : dropBytes (s ++ t) s.size = t := by
  induction s with
  | nil => simp
  | cons c s ih =>
    have := c.utf8Size_pos
    rw [List.cons_append, size_cons, dropBytes_cons (by omega), Nat.add_sub_cancel_left, ih]

/-- A character fits in front of the place when it has no more bytes than there are. -/
theorem before?_cons {c : Char} {n : Nat} (h : c.utf8Size ≤ n) (t : Text) :
    before? (c :: t) n = (before? t (n - c.utf8Size)).map (c :: ·) := by
  have pos := c.utf8Size_pos
  cases n with
  | zero => omega
  | succ n =>
    rw [before?, if_pos h]
    exact Nat.succ_ne_zero n

/-- The place behind the first piece is on a boundary, and what stands before it is that piece. -/
theorem before?_size (s t : Text) : before? (s ++ t) s.size = some s := by
  induction s with
  | nil => cases t <;> rfl
  | cons c s ih =>
    rw [List.cons_append, size_cons, before?_cons (Nat.le_add_right _ _), Nat.add_sub_cancel_left,
      ih, Option.map_some]

/-- **A middle piece** is cut out by its bytes, for both its ends are boundaries of the text. -/
theorem slice?_middle (before middle after : Text) :
    slice? (before ++ middle ++ after) before.size (before.size + middle.size) = some middle := by
  have past : before? (before ++ middle ++ after) before.size = some before := by
    rw [List.append_assoc]
    exact before?_size _ _
  rw [slice?, past]
  -- behind the first piece the cut is one from the front again
  show (if _ ≤ _ then before? ((before ++ middle ++ after).drop before.length) _ else none) = _
  rw [if_pos (Nat.le_add_right _ _), List.append_assoc, List.drop_left, Nat.add_sub_cancel_left]
  exact before?_size _ _

/-- What stands before and behind the bytes of a middle piece, for a text that is only equal to
    its three pieces. -/
theorem takeBytes_dropBytes {t before middle after : Text} (h : t = before ++ middle ++ after) :
    takeBytes t before.size = before ∧ dropBytes t (before ++ middle).size = after := by
  subst h
  refine ⟨?_, dropBytes_size _ _⟩
  rw [List.append_assoc]
  exact takeBytes_size _ _

/-! ## Trimming -/

theorem isSpaces_append {s t : Text} : isSpaces (s ++ t) = (isSpaces s && isSpaces t) :=
  List.all_append

theorem isSpaces_iff {t : Text} : isSpaces t = true ↔ ∀ c ∈ t, isSpace c = true :=
  List.all_eq_true

/-- Spaces in front are passed together with those that the text itself begins with. -/
theorem trimStart_spaces_append {s : Text} (h : isSpaces s = true) (t : Text) :
    trimStart (s ++ t) = trimStart t :=
  List.dropWhile_append_of_pos (isSpaces_iff.1 h)

/-- Spaces behind are passed together with those that the text itself ends in. -/
theorem trimEnd_append_spaces {s : Text} (h : isSpaces s = true) (t : Text) :
    trimEnd (t ++ s) = trimEnd t := by
  unfold trimEnd
  rw [List.reverse_append, List.dropWhile_append_of_pos]
  intro c hc
  exact isSpaces_iff.1 h c (List.mem_reverse.1 hc)

/-- A text is the spaces at its front and what is left of it. -/
theorem eq_trimStart (t : Text) : ∃ s, isSpaces s = true ∧ t = s ++ trimStart t :=
  ⟨t.takeWhile isSpace, List.all_takeWhile, List.takeWhile_append_dropWhile.symm⟩

/-- A text is what is left of it and the spaces at its end. -/
theorem eq_trimEnd (t : Text) : ∃ s, isSpaces s = true ∧ t = trimEnd t ++ s := by
  refine ⟨(t.reverse.takeWhile isSpace).reverse, ?_, ?_⟩
  · unfold isSpaces
    rw [List.all_reverse]
    exact List.all_takeWhile
  · unfold trimEnd
    rw [← List.reverse_append, List.takeWhile_append_dropWhile, List.reverse_reverse]

/-- A text that ends in another character has no spaces to lose there. -/
theorem trimEnd_eq_self {t : Text} {c : Char} (last : t.getLast? = some c)
    (h : isSpace c = false) : trimEnd t = t := by
  obtain ⟨front, rfl⟩ := List.getLast?_eq_some_iff.1 last
  simp [trimEnd, h]

/-- **A text is its trimmed form between spaces.**  The spaces in front are cut first and those
    behind from what is left, so that a blank text loses all of them in front. -/
theorem eq_trim (t : Text) :
    ∃ before after, isSpaces before = true ∧ isSpaces after = true ∧
      t = before ++ trim t ++ after := by
  obtain ⟨before, hb, eb⟩ := eq_trimStart t
  obtain ⟨after, ha, ea⟩ := eq_trimEnd (trimStart t)
  refine ⟨before, after, hb, ha, ?_⟩
  unfold trim
  rw [List.append_assoc, ← ea, ← eb]

/-- Of a blank text nothing is left. -/
theorem trim_of_isSpaces {t : Text} (h : isSpaces t = true) : trim t = [] := by
  have := trimStart_spaces_append h []
  rw [List.append_nil] at this
  rw [trim, this]
  rfl

/-- Spaces in front do not count. -/
theorem trim_spaces_append {s : Text} (h : isSpaces s = true) (t : Text) :
    trim (s ++ t) = trim t := by
  rw [trim, trimStart_spaces_append h, trim]

/-- Spaces behind do not count. -/
theorem trim_append_spaces {s : Text} (h : isSpaces s = true) (t : Text) :
    trim (t ++ s) = trim t := by
  -- of a blank text the first cut would take these spaces too, so it stands apart
  by_cases blank : isSpaces t = true
  · rw [trim_spaces_append blank, trim_of_isSpaces h, trim_of_isSpaces blank]
  · have kept : trimStart (t ++ s) = trimStart t ++ s := by
      unfold trimStart
      rw [List.dropWhile_append, if_neg]
      intro nothing
      refine blank (isSpaces_iff.2 fun c hc => ?_)
      rw [List.isEmpty_iff] at nothing
      exact List.dropWhile_eq_nil_iff.1 nothing c hc
    rw [trim, kept, trimEnd_append_spaces h, trim]

/-- Of a text that is not blank something is left, for otherwise it would be spaces in front and
    behind. -/
theorem trim_ne_nil {t : Text} (h : isSpaces t = false) : trim t ≠ [] := by
  intro nothing
  obtain ⟨before, after, hb, ha, e⟩ := eq_trim t
  rw [nothing, List.append_nil] at e
  rw [e, isSpaces_append, hb, ha] at h
  exact absurd h (by decide)

/-- Trimming is done once: the spaces that stood around the trimmed form do not change what is
    left of it. -/
theorem trim_trim (t : Text) : trim (trim t) = trim t := by
  obtain ⟨before, after, hb, ha, e⟩ := eq_trim t
  have whole : trim t = trim (before ++ trim t ++ after) := congrArg trim e
  rw [List.append_assoc, trim_spaces_append hb, trim_append_spaces ha] at whole
  exact whole.symm

/-- Trimming leaves nothing exactly where there were spaces only. -/
theorem isSpaces_trim (t : Text) : isSpaces (trim t) = isSpaces t := by
  obtain ⟨before, after, hb, ha, e⟩ := eq_trim t
  have whole : isSpaces t = isSpaces (before ++ trim t ++ after) := congrArg isSpaces e
  rw [isSpaces_append, isSpaces_append, hb, ha, Bool.true_and, Bool.and_true] at whole
  exact whole.symm

/-- A trimmed text begins with no space. -/
theorem isSpace_head_of_trim {t : Text} {c : Char} {rest : Text} (h : trim t = t)
    (e : t = c :: rest) : isSpace c = false := by
  cases hc : isSpace c with
  | false => rfl
  | true =>
    have shorter : trim t = trim rest := by
      rw [e]
      exact trim_spaces_append (s := [c]) (by simp [isSpaces, hc]) rest
    -- with a space in front, the trimmed text would be shorter than itself
    obtain ⟨before, after, -, -, whole⟩ := eq_trim rest
    have := congrArg List.length whole
    rw [← shorter, h, e] at this
    simp only [List.length_append, List.length_cons] at this
    omega

/-- A trimmed text ends with no space. -/
theorem isSpace_last_of_trim {t : Text} {c : Char} {front : Text} (h : trim t = t)
    (e : t = front ++ [c]) : isSpace c = false := by
  cases hc : isSpace c with
  | false => rfl
  | true =>
    have shorter : trim t = trim front := by
      rw [e]
      exact trim_append_spaces (s := [c]) (by simp [isSpaces, hc]) front
    obtain ⟨before, after, -, -, whole⟩ := eq_trim front
    have := congrArg List.length whole
    rw [← shorter, h, e] at this
    simp only [List.length_append, List.length_cons, List.length_nil] at this
    omega

/-! ## Searching -/

/-- **The first place of a text**: the mark stands there, and nothing before it begins with the
    mark.  By induction on the text, with the place moved by one for each character that is
    passed. -/
theorem find?_eq_some_iff {m t : Text} {i : Nat} :
    find? m t = some i ↔ i ≤ t.length ∧ m <+: t.drop i ∧ ∀ j < i, ¬ m <+: t.drop j := by
  induction t generalizing i with
  | nil =>
    unfold find?
    split
    · next hm =>
      rw [List.isEmpty_iff] at hm
      subst hm
      constructor
      · intro h
        cases h
        simp
      · rintro ⟨h, -, -⟩
        simp at h
        rw [h]
    · next hm =>
      constructor
      · intro h
        cases h
      · rintro ⟨-, h, -⟩
        rw [List.drop_nil, List.prefix_nil] at h
        exact absurd (List.isEmpty_iff.2 h) hm
  | cons c t ih =>
    unfold find?
    split
    · next hm =>
      rw [List.isPrefixOf_iff_prefix] at hm
      constructor
      · -- the mark stands at the front, and no place is before that
        intro h
        cases h
        exact ⟨Nat.zero_le _, hm, fun j hj => absurd hj (Nat.not_lt_zero j)⟩
      · rintro ⟨-, -, h⟩
        cases i with
        | zero => rfl
        | succ i => exact absurd hm (h 0 (Nat.succ_pos i))
    · next hm =>
      rw [List.isPrefixOf_iff_prefix] at hm
      rw [Option.map_eq_some_iff]
      constructor
      · rintro ⟨j, hj, rfl⟩
        obtain ⟨le, here, first⟩ := ih.1 hj
        refine ⟨Nat.succ_le_succ le, here, fun k hk => ?_⟩
        cases k with
        | zero => exact hm
        | succ k => exact first k (Nat.lt_of_succ_lt_succ hk)
      · rintro ⟨le, here, first⟩
        cases i with
        | zero => exact absurd here hm
        | succ i =>
          exact ⟨i, ih.2 ⟨Nat.le_of_succ_le_succ le, here,
            fun k hk => first (k + 1) (Nat.succ_lt_succ hk)⟩, rfl⟩

/-- **Nothing before the end of `before` begins with the mark**, when the mark comes next. -/
def EndsFirst (m before : Text) : Prop := ∀ j < before.length, ¬ m <+: (before ++ m).drop j

/-- Whether the mark begins at a place before itself does not depend on what follows: there is
    enough text up to its own end. -/
theorem prefix_drop_append {m before rest : Text} {j : Nat} (h : j ≤ before.length) :
    m <+: (before ++ m ++ rest).drop j ↔ m <+: (before ++ m).drop j := by
  rw [List.drop_append_of_le_length (by rw [List.length_append]; omega)]
  constructor
  · intro p
    refine List.prefix_of_prefix_length_le p (List.prefix_append _ _) ?_
    rw [List.length_drop, List.length_append]
    omega
  · intro p
    exact p.trans (List.prefix_append _ _)

/-- **A cut** is where the mark stands first; what comes behind it does not matter. -/
theorem cut?_eq_some_iff {m t before after : Text} :
    cut? m t = some (before, after) ↔ t = before ++ m ++ after ∧ EndsFirst m before := by
  unfold cut?
  rw [Option.map_eq_some_iff]
  constructor
  · rintro ⟨i, hi, e⟩
    obtain ⟨le, -, first⟩ := find?_eq_some_iff.1 hi
    obtain ⟨rfl, rfl⟩ := Prod.mk.inj e
    have whole := eq_of_find? hi
    refine ⟨whole, fun j hj => ?_⟩
    rw [List.length_take, Nat.min_eq_left le] at hj
    -- the search looked at the whole text; up to the mark this is the text before it with the mark
    -- behind
    rw [← prefix_drop_append (by rw [List.length_take, Nat.min_eq_left le]; omega), ← whole]
    exact first j hj
  · rintro ⟨rfl, first⟩
    refine ⟨before.length, ?_, by simp⟩
    rw [find?_eq_some_iff]
    refine ⟨by simp, by simp, fun j hj => ?_⟩
    rw [prefix_drop_append (by omega)]
    exact first j hj

end XmlGraft.Text
