/-
  Blank — the characters that stand between things.

  Two notions are kept apart.  SPACE is the Unicode property White_Space; trimming and the question
  whether a text is blank use it.  BLANK is a space or a tab, the only characters indentation is
  made of.  A third notion, the white space inside tags, belongs to the tokens and has four
  characters.

  * `isSpace`, `isBlank`    the two notions; a blank is a space
  * `trim`                  a text without the spaces at both ends
  * `leadingBlanks`         what a line is indented by

  The difference matters for lines that begin with other spaces than these two: such a line has
  content that is indented by nothing, though trimming removes what it begins with.
-/
import XmlGraft.Text.Basic

namespace XmlGraft.Text

/-- **Space**: the Unicode property White_Space. -/
def isSpace (c : Char) : Bool :=
  let n := c.toNat
  (9 ≤ n && n ≤ 13) || n == 0x20 || n == 0x85 || n == 0xA0 || n == 0x1680
    || (0x2000 ≤ n && n ≤ 0x200A) || n == 0x2028 || n == 0x2029 || n == 0x202F
    || n == 0x205F || n == 0x3000

/-- **Blank**: a space or a tab. -/
def isBlank (c : Char) : Bool := c == ' ' || c == '\t'

/-- A blank is a space. -/
theorem isSpace_of_isBlank {c : Char} (h : isBlank c = true) : isSpace c = true := by
  simp only [isBlank, Bool.or_eq_true, beq_iff_eq] at h
  rcases h with rfl | rfl <;> rfl

/-- Without the spaces at the front. -/
def trimStart (t : Text) : Text := t.dropWhile isSpace

/-- Without the spaces at the end. -/
def trimEnd (t : Text) : Text := (t.reverse.dropWhile isSpace).reverse

/-- **Trimmed**: without the spaces at both ends. -/
def trim (t : Text) : Text := trimEnd (trimStart t)

/-- Nothing but spaces. -/
def isSpaces (t : Text) : Bool := t.all isSpace

/-- The run of blanks at the front of a line. -/
def leadingBlanks (t : Text) : Text := t.takeWhile isBlank

end XmlGraft.Text
