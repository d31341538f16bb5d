/-
  CharSet — sets of characters beyond ASCII, kept as the code points where membership changes.

  A character is in the set when the number of changes up to its code point is odd.  The sets of
  this library are properties of the Unicode standard: letters and printable characters as of
  version 17, columns as of version 15.1, so that a character is drawn as terminals know it.  What
  holds for ASCII is said where the set is used.
-/
import XmlGraft.Bisect

namespace XmlGraft

/-- **Character set**: the code points, ascending, at which membership changes. -/
structure CharSet where
  changes : Array Nat

/-- Is the character in the set? -/
def CharSet.contains (s : CharSet) (c : Char) : Bool :=
  countBelow s.changes (c.toNat + 1) % 2 == 1

example : CharSet.contains ⟨#[0x41, 0x5B]⟩ 'Z' = true := by cbv
example : CharSet.contains ⟨#[0x41, 0x5B]⟩ '[' = false := by cbv

end XmlGraft
