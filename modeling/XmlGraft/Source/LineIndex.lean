/-
  LineIndex — where the lines of a text are.

  The index holds the byte offsets of the line feeds, in order, and the length of the text.  The row
  of an offset is the number of line feeds before it, found by bisection: a line feed belongs to the
  row it ends.  Rows are counted from 0; a text always has at least one row, and a final line feed
  opens one more.

  * `row`         row of an offset, by bisection
  * `lineStart?`  first byte of a row
  * `location?`   row and byte column of an offset

  The offsets are kept in an array, since bisection looks at the middle; they ascend because they
  are found from left to right (`breaksFrom`).  A carriage return is no line end here.  It stays at
  the end of its row, and whoever shows the row takes it away.
-/
import XmlGraft.Bisect
import XmlGraft.Text.Basic

namespace XmlGraft

/-- **Line index** of a text: the offsets of its line feeds and its length in bytes. -/
structure LineIndex where
  breaks : Array Nat
  size : Nat
  deriving DecidableEq, Repr

/-- A byte offset with its row and the distance in bytes from the start of that row. -/
structure Location where
  offset : Nat
  row : Nat
  column : Nat
  deriving DecidableEq, Repr

/-- A range of bytes `[start, stop)`. -/
structure ByteRange where
  start : Nat
  stop : Nat
  deriving DecidableEq, Repr

namespace LineIndex

/-- Byte offsets of the line feeds of `t`, where `t` starts at byte `o`. -/
def breaksFrom (o : Nat) : Text → List Nat
  | [] => []
  | c :: t =>
    if c = '\n' then o :: breaksFrom (o + c.utf8Size) t else breaksFrom (o + c.utf8Size) t

/-- The index of a text. -/
def ofText (t : Text) : LineIndex := ⟨(breaksFrom 0 t).toArray, t.size⟩

/-- **Row of an offset**: how many line feeds stand before it. -/
def row (i : LineIndex) (offset : Nat) : Nat :=
  countBelow i.breaks offset

/-- How many rows there are. -/
def lineCount (i : LineIndex) : Nat := i.breaks.size + 1

/-- Byte offset at which a row begins. -/
def lineStart? (i : LineIndex) : Nat → Option Nat
  | 0 => some 0
  | row + 1 => (i.breaks[row]?).map (· + 1)

/-- **Location of an offset**; none past the end of the text. -/
def location? (i : LineIndex) (offset : Nat) : Option Location :=
  if offset ≤ i.size then
    (i.lineStart? (i.row offset)).map fun start => ⟨offset, i.row offset, offset - start⟩
  else none

end LineIndex

end XmlGraft
