/-
  Text — a document as the list of its characters, measured in UTF-8 bytes.

  Everything in this library that reads or writes a document works on `Text`.  Offsets into a text
  are BYTE offsets, as tools that point into files use them; a byte offset is a `boundary` when a
  character ends there.  The module holds the measure, cutting by bytes, and the few searches the
  tokenizer and the graft need.

  * `size`          length in bytes
  * `before? t n`   the first `n` bytes, if that is a boundary
  * `slice? t a b`  the bytes `[a, b)`, if both ends are boundaries
  * `find? m t`     how many characters stand before the first occurrence of `m`
  * `occurrences`   how often `m` occurs, counted from the left without overlap

  A list of characters is a text by construction: there are no bytes in it that make up no
  character, and the recursion of every function on texts is the one of lists.  What is paid for
  this is that a byte has to be looked for.  Cutting comes in two forms.  The ones with a question
  mark fail inside a character; `takeBytes` and `dropBytes` never fail, and count a character by the
  byte it starts at.  Where both apply, they agree (`takeBytes_dropBytes`).

  Counting is without overlap, as a search that goes on behind each occurrence counts.  A text that
  overlaps itself, such as `xx` in `xxx`, is counted once and yet occurs at two places.
-/

namespace XmlGraft

/-- **Text**: the characters of a document or of a piece of one. -/
abbrev Text := List Char

namespace Text

/-- **Length in bytes** of the UTF-8 form. -/
def size : Text → Nat
  | [] => 0
  | c :: t => c.utf8Size + size t

@[simp] theorem size_nil : size [] = 0 := rfl

@[simp] theorem size_cons (c : Char) (t : Text) : size (c :: t) = c.utf8Size + size t := rfl

@[simp] theorem size_append (s t : Text) : size (s ++ t) = size s + size t := by
  induction s with
  | nil => simp
  | cons c s ih => simp [ih, Nat.add_assoc]

/-- The first `n` bytes, provided that a character ends there. -/
def before? : Text → Nat → Option Text
  | _, 0 => some []
  | [], _ + 1 => none
  | c :: t, n => if c.utf8Size ≤ n then (before? t (n - c.utf8Size)).map (c :: ·) else none

/-- The characters that start at or after byte `n`, where the text itself starts at byte 0. -/
def dropBytes : Text → Nat → Text
  | t, 0 => t
  | [], _ => []
  | c :: t, n => dropBytes t (n - c.utf8Size)

/-- The characters that start before byte `n`, where the text itself starts at byte 0. -/
def takeBytes : Text → Nat → Text
  | _, 0 => []
  | [], _ => []
  | c :: t, n => c :: takeBytes t (n - c.utf8Size)

/-- **A piece by byte offsets**: the bytes `[a, b)` when both ends are boundaries. -/
def slice? (t : Text) (a b : Nat) : Option Text := do
  let past ← before? t a
  if a ≤ b then before? (t.drop past.length) (b - a) else none

/-- How many characters stand before the first occurrence of `m`. -/
def find? (m : Text) : Text → Option Nat
  | [] => if m.isEmpty then some 0 else none
  -- the whole rest is compared, so the first hit is the leftmost one
  | c :: t => if m.isPrefixOf (c :: t) then some 0 else (find? m t).map (· + 1)

/-- Does `m` occur in the text? -/
def contains (t m : Text) : Bool := (find? m t).isSome

/-- Cut at the first occurrence of `m`: what stands before it and what stands after it. -/
def cut? (m t : Text) : Option (Text × Text) :=
  (find? m t).map fun i => (t.take i, t.drop (i + m.length))

theorem eq_of_find? {m t : Text} {i : Nat} (h : find? m t = some i) :
    t = t.take i ++ m ++ t.drop (i + m.length) := by
  induction t generalizing i with
  | nil =>
    unfold find? at h
    split at h
    · next hm => cases h; simp [List.isEmpty_iff.1 hm]
    · simp at h
  | cons c t ih =>
    unfold find? at h
    split at h
    · next hm =>
      cases h
      obtain ⟨rest, hrest⟩ := List.isPrefixOf_iff_prefix.1 hm
      simp [← hrest]
    · obtain ⟨j, hj, rfl⟩ := Option.map_eq_some_iff.1 h
      have := ih hj
      simpa [Nat.add_right_comm] using this

/-- The two sides of a cut, with `m` between them, are the text. -/
theorem eq_of_cut? {m t before after : Text} (h : cut? m t = some (before, after)) :
    t = before ++ m ++ after := by
  obtain ⟨i, hi, e⟩ := Option.map_eq_some_iff.1 h
  cases e
  exact eq_of_find? hi

/-- The text with the first occurrence of `m` replaced by `r`. -/
def replaceFirst (t m r : Text) : Text :=
  match cut? m t with
  | some (before, after) => before ++ r ++ after
  | none => t

/-- How often `m` occurs, counted from the left without overlap. -/
def occurrences (m : Text) : Text → Nat
  | [] => if m.isEmpty then 1 else 0
  | c :: t =>
    if m.isEmpty then occurrences m t + 1
    else if m.isPrefixOf (c :: t) then occurrences m (t.drop (m.length - 1)) + 1
    else occurrences m t
termination_by t => t.length
decreasing_by all_goals simp only [List.length_drop, List.length_cons]; omega

/-- The pieces between the separators `sep`; one more piece than there are separators. -/
def splitOn (sep : Char) : Text → List Text
  | [] => [[]]
  | c :: t =>
    if c = sep then [] :: splitOn sep t
    else
      match splitOn sep t with
      | [] => [[c]]
      | piece :: pieces => (c :: piece) :: pieces

/-- The pieces with `sep` between each two. -/
def join (sep : Text) (pieces : List Text) : Text := sep.intercalate pieces

/-- The text without `suffix` at its end, if it ends so. -/
def dropEnd? (t suffix : Text) : Option Text :=
  if suffix.isSuffixOf t then some (t.take (t.length - suffix.length)) else none

/-- The text without `start` at its front, if it begins so. -/
def dropStart? (t start : Text) : Option Text :=
  if start.isPrefixOf t then some (t.drop start.length) else none

end Text

end XmlGraft
