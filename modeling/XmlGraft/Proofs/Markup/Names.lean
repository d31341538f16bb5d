/-
  Names — what stands in the name of an element or an attribute.

  A name (`isElementName`) holds none of the characters that markup is made of and no space, and
  begins as no other markup does (`PlainName`).  Reading relies on no more than that, so that the
  lemmas on tags speak of plain names and not of letters.

  1. **Spaces** (`mem_spaces`): there are twenty-five of them.  That none of them stands in a name
     is then a check over a list (`isNameChar_spaces`), where the classes of letters are too large
     to be reasoned about one by one.

  2. **Names** (`plainName_of_isElementName`): each character of a name is plain, the first one
     because what can begin a name can also stand in one.

  The predicate on names is a program over tables of code points, and plain names are the only thing
  that is ever used of it.  With tables of another version of Unicode, the proofs of this module are
  the only ones to be looked at again.
-/
import XmlGraft.Edit.Route

namespace XmlGraft.Markup

open Text

/-- A character that neither ends a name nor means anything to markup. -/
structure PlainChar (c : Char) : Prop where
  no_space : isSpace c = false
  no_mark : c ∉ ['<', '>', '"', '\'', '=', '/', '!', '?', '&']

/-- **Plain name**: not empty, and of plain characters. -/
structure PlainName (name : Text) : Prop where
  ne_nil : name ≠ []
  plain : ∀ c ∈ name, PlainChar c

/-- White space in tags is white space: four characters of the twenty-five. -/
theorem isSpace_of_isTagSpace {c : Char} (h : isTagSpace c = true) : isSpace c = true := by
  simp only [isTagSpace, Bool.or_eq_true, beq_iff_eq] at h
  rcases h with ((rfl | rfl) | rfl) | rfl <;> rfl

theorem PlainChar.no_tagSpace {c : Char} (h : PlainChar c) : isTagSpace c = false := by
  cases space : isTagSpace c with
  | false => rfl
  | true =>
    have := isSpace_of_isTagSpace space
    rw [h.no_space] at this
    cases this

/-- The characters that can stand behind the first one of a name. -/
def isNameChar (c : Char) : Bool :=
  isLetterOrDigit c || c == '_' || c == '-' || c == '.' || c == ':'

/-- The spaces, one by one. -/
def spaces : List Char :=
  ['\t', '\n', '\x0B', '\x0C', '\r', ' ', '\u0085', '\u00A0', '\u1680', '\u2000', '\u2001', '\u2002',
    '\u2003', '\u2004', '\u2005', '\u2006', '\u2007', '\u2008', '\u2009', '\u200A', '\u2028', '\u2029',
    '\u202F', '\u205F', '\u3000']

/-- Every space is in the list, by its code point: the ranges of the definition are written out
    there. -/
theorem mem_spaces {c : Char} (h : isSpace c = true) : c ∈ spaces := by
  -- compared as numbers, the ranges of spaces and the list are linear arithmetic
  have code : c.toNat ∈ spaces.map Char.toNat := by
    simp only [isSpace, Bool.or_eq_true, Bool.and_eq_true, decide_eq_true_eq, beq_iff_eq] at h
    simp only [spaces, List.map_cons, List.map_nil, List.mem_cons, List.not_mem_nil]
    simp only [Char.toNat, Char.reduceVal, UInt32.reduceToNat] at h ⊢
    omega
  obtain ⟨d, hd, same⟩ := List.mem_map.1 code
  rwa [← Char.toNat_inj.1 same]

/-- No space stands in a name. -/
theorem isNameChar_spaces : (spaces.all fun c => !isNameChar c) = true := by decide +kernel

/-- What can stand in a name is plain: among the spaces and among the marks there is no such
    character. -/
theorem plainChar_of_isNameChar {c : Char} (h : isNameChar c = true) : PlainChar c := by
  constructor
  · cases space : isSpace c with
    | false => rfl
    | true =>
      have := List.all_eq_true.1 isNameChar_spaces c (mem_spaces space)
      rw [h] at this
      cases this
  · have marks : (['<', '>', '"', '\'', '=', '/', '!', '?', '&'].all fun c => !isNameChar c) = true := by
      decide
    intro mark
    have := List.all_eq_true.1 marks c mark
    rw [h] at this
    cases this

/-- A character that can begin a name can also stand in one. -/
theorem isNameChar_of_first {c : Char} (h : (isLetter c || c == '_') = true) :
    isNameChar c = true := by
  unfold isNameChar
  rcases Bool.or_eq_true _ _ ▸ h with letter | underscore
  · -- within ASCII and outside of it, a letter is one of the letters and digits
    have digit : isLetterOrDigit c = true := by
      unfold isLetter at letter
      unfold isLetterOrDigit
      split at letter
      · next ascii =>
        rw [if_pos ascii, Char.isAlphanum, letter, Bool.true_or]
      · next other => rw [if_neg other, letter, Bool.true_or]
    simp [digit]
  · simp [underscore]

/-- **The name of an element is a plain name**, in its first character and in those behind it. -/
theorem plainName_of_isElementName {name : Text} (h : isElementName name = true) :
    PlainName name := by
  cases name with
  | nil => cases h
  | cons c t =>
    obtain ⟨first, more⟩ := Bool.and_eq_true_iff.1 h
    refine ⟨List.cons_ne_nil _ _, fun d hd => ?_⟩
    rcases List.mem_cons.1 hd with rfl | hd
    · exact plainChar_of_isNameChar (isNameChar_of_first first)
    · exact plainChar_of_isNameChar (List.all_eq_true.1 more d hd)

end XmlGraft.Markup
