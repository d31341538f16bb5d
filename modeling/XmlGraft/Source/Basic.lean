/-
  Source — the text of a document together with its line index.

  Positions are what people read: line and column counted from 1, the column in characters.  A
  byte-order mark at the start of the text takes up bytes but no column, and it is not part of the
  first line.

  * `position?`   line and column of a byte offset
  * `line?`       text of a row without its terminator
  * `baseIndent`  the blanks a line starts with, cut off at a position

  A source cannot be built with the index of another text: the field `indexed` says that the index
  is the one of the text, so no lemma has to suppose it.

  The three functions fail alike, by giving nothing: behind the end of the text, inside a character,
  and for a row that is not there.  Only `baseIndent` always answers, for the layout of a new line
  has to begin with something.
-/
import XmlGraft.Source.LineIndex
import XmlGraft.Text.Blank

namespace XmlGraft

/-- **Position**: line and column, both counted from 1, the column in characters. -/
structure Position where
  line : Nat
  column : Nat
  deriving DecidableEq, Repr

/-- The byte-order mark. -/
def byteOrderMark : Char := '\uFEFF'

namespace Position

/-- The position of the first character. -/
def first : Position := ⟨1, 1⟩

/-- The position after one more character: a line feed opens a line. -/
def step (p : Position) (c : Char) : Position :=
  if c = '\n' then ⟨p.line + 1, 1⟩ else ⟨p.line, p.column + 1⟩

/-- The position after a run of characters. -/
def past (p : Position) (t : Text) : Position := t.foldl step p

/-- A position as `line:column`. -/
def display (p : Position) : String := s!"{p.line}:{p.column}"

end Position

/-- **Source**: a text that carries the index of its lines. -/
structure Source where
  text : Text
  index : LineIndex
  /-- The index is the one of the text. -/
  indexed : index = LineIndex.ofText text

namespace Source

/-- A text with its index. -/
def ofText (t : Text) : Source := ⟨t, LineIndex.ofText t, rfl⟩

/-- Bytes taken by a byte-order mark at the start. -/
def markSize (s : Source) : Nat :=
  if s.text.head? = some byteOrderMark then byteOrderMark.utf8Size else 0

/-- Byte offset of the first character of a row that counts for columns: on the first row the
    byte-order mark is skipped, as far as `limit` allows. -/
def visibleStart (s : Source) (row start limit : Nat) : Nat :=
  if row = 0 then min (max start s.markSize) limit else start

/-- **Position of an offset**; none past the end and inside a character. -/
def position? (s : Source) (offset : Nat) : Option Position := do
  let at_ ← s.index.location? offset
  let start := s.visibleStart at_.row (offset - at_.column) offset
  -- the columns count characters, so the bytes before the offset are cut out and not subtracted
  let past ← s.text.slice? start offset
  return ⟨at_.row + 1, past.length + 1⟩

/-- Bytes of a row without its terminator: a carriage return before the line feed goes too. -/
def lineRange? (s : Source) (row : Nat) : Option ByteRange := do
  let start ← s.index.lineStart? row
  let stop := (s.index.breaks[row]?).getD s.index.size
  let body ← s.text.slice? start stop
  return ⟨start, if body.getLast? = some '\r' then stop - 1 else stop⟩

/-- **Text of a row** without its terminator and without a byte-order mark. -/
def line? (s : Source) (row : Nat) : Option Text := do
  let range ← s.lineRange? row
  s.text.slice? (s.visibleStart row range.start range.stop) range.stop

/-- How many rows there are. -/
def lineCount (s : Source) : Nat := s.index.lineCount

/-- **Base indentation** at a position: the blanks at the front of its line, as far as they
    stand before its column.  A line that does not exist has none. -/
def baseIndent (s : Source) (p : Position) : Text :=
  match p.line with
  | 0 => []
  | row + 1 => ((s.line? row).getD []).leadingBlanks.take (p.column - 1)

end Source

/-- **Dominant line terminator** of a text: CRLF when more lines end so than in a bare LF. -/
def dominantEnding (t : Text) : Text :=
  let crlf := Text.occurrences ['\r', '\n'] t
  if crlf > t.count '\n' - crlf then ['\r', '\n'] else ['\n']

end XmlGraft
