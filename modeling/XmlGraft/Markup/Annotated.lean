/-
  Annotated — an error together with the line it points into.

  The report opens with the error in words.  If the error points at a place of a text that is not
  empty, there follow the name of the text with line and column, the line itself, and under it an
  arrow from the place to a label:

      Error: invalid XML: multiple root elements
         ╭─[pom.xml:1:5]
         │
       1 │ <a/><b/>
         │     ┬
         │     ╰── second root element starts here
      ───╯

  Tabs are written as spaces, up to the next multiple of four, and every character of the line is
  given the columns it takes up, so that the arrow stands under its place.

  * `Error.annotated`  the report
-/
import XmlGraft.Markup.Error
import XmlGraft.Text.Blank
import XmlGraft.Text.Lines
import XmlGraft.Text.Width

namespace XmlGraft.Markup

/-- **A marked place**: a line of a text, with the index of a character in it. -/
structure Mark where
  /-- The name of the text. -/
  name : Text
  place : Text.Place
  /-- What is said about the place. -/
  label : Text

namespace Mark

/-- Blanks. -/
def blanks (n : Nat) : Text := List.replicate n ' '

/-- A line of the report. -/
def row (margin body : Text) : Text := margin ++ body ++ ['\n']

/-- The number of the line, counted from 1. -/
def number (m : Mark) : Text := (toString (m.place.row + 1)).toList

/-- The line as it is shown: without the spaces at its end. -/
def shown (m : Mark) : Text := Text.trimEnd m.place.line

/-- The columns that a character takes up at an index of its line: a tab goes on to the next
    multiple of four, any other space is as wide as a blank. -/
def width (index : Nat) (c : Char) : Nat :=
  if c = '\t' then (index / 4 + 1) * 4 - index
  else if Text.isSpace c then 1
  else Text.columns c

/-- A character of the line as it is shown at an index. -/
def drawn (c : Char) (index : Nat) : Text :=
  if Text.isSpace c then blanks (width index c) else [c]

/-- Is there no character at the place, because the text ends there? -/
def atEnd (m : Mark) : Bool := m.place.line.length ≤ m.place.column

/-- How many indices the arrow goes over: up to the marked character and two more. -/
def reach (m : Mark) : Nat := m.place.column + (if m.atEnd then 0 else 1) + 2

/-- What the arrow has at an index: a first character and those that fill up the columns. -/
structure Stroke where
  first : Char
  fill : Char

/-- A stroke over some columns. -/
def Stroke.over (s : Stroke) : Nat → Text
  | 0 => []
  | n + 1 => s.first :: List.replicate n s.fill

/-- One line of the arrow: a stroke for every index, as wide as the character above it. -/
def arrow (m : Mark) (stroke : Nat → Stroke) : Text :=
  (List.range m.reach).flatMap fun i =>
    (stroke i).over ((m.shown[i]?).elim 1 (width i))

/-- The upper end of the arrow underlines the marked character. -/
def upperStroke (m : Mark) (index : Nat) : Stroke :=
  if index ≠ m.place.column then ⟨' ', ' '⟩
  else if m.atEnd then ⟨'│', ' '⟩
  else ⟨'┬', '─'⟩

/-- The lower end of the arrow turns to the label. -/
def lowerStroke (m : Mark) (index : Nat) : Stroke :=
  if index < m.place.column then ⟨' ', ' '⟩
  else if index = m.place.column then ⟨'╰', '─'⟩
  else ⟨'─', '─'⟩

/-- Line and column of the place. -/
def header (m : Mark) : Text :=
  ['╭', '─', '['] ++ m.name ++ [':'] ++ m.number ++ [':']
    ++ (toString (m.place.column + 1)).toList ++ [']']

/-- **The marked line**, framed and with its label. -/
def drawing (m : Mark) : Text :=
  let margin := blanks (m.number.length + 2)
  let bar := margin ++ ['│', ' ']
  row margin m.header
    ++ row margin ['│']
    ++ row ([' '] ++ m.number ++ [' ', '│', ' ']) (m.shown.zipIdx.flatMap fun (c, i) => drawn c i)
    ++ row bar (m.arrow m.upperStroke)
    ++ row bar (m.arrow m.lowerStroke ++ [' '] ++ m.label)
    ++ row (List.replicate margin.length '─') ['╯']

end Mark

namespace Error

/-- The index of the character that starts at a byte offset: 0 for an offset inside a character,
    the end of the text for one past it. -/
def charIndex (text : Text) (offset : Nat) : Nat :=
  (text.before? (min offset text.size)).elim 0 List.length

/-- The place in a text that an error points at. -/
def place? (e : Error) (text : Text) : Option Text.Place := do
  let offset ← e.offset?
  Text.lineAt? (Text.lines text) (charIndex text offset)

/-- **The error with the line it points into**; `name` is how the text is called. -/
def annotated (e : Error) (name text : Text) : Text :=
  Mark.row "Error: ".toList e.message.toList
    ++ (e.place? text).elim [] fun place => Mark.drawing ⟨name, place, e.label.toList⟩

end Error

end XmlGraft.Markup
