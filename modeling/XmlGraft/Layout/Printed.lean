/-
  Printed — an element printed in one piece and cut into lines.

  A line feed of the print may end a line or belong to a text, and only the printer knows which.  It
  notes the byte at which each line ends, and the print is cut there.

  * `chunks`        what is printed in one go, and which of its line feeds end lines
  * `printed`       the print of chunks, with the bytes at which lines end
  * `cutAt`         a text cut at bytes; that fails inside a character
  * `printedLines`  the lines of an element

  This is how the lines that a graft inserts are made.  The print is one text, and the notes are
  numbers that have nothing to do with characters, so that the cut succeeds has to be proved: every
  number that is noted is the place of a line feed.
-/
import XmlGraft.Layout.Lines
import XmlGraft.Markup.Error
import XmlGraft.Source.LineIndex

namespace XmlGraft.Layout

open Markup

/-- **Which line feeds end lines.** -/
inductive Breaks
  /-- None: those of a text are content. -/
  | none
  /-- The one that the printer put in front, if it did: those of attribute values are content. -/
  | leading
  /-- All of them: the lines of a comment are lines. -/
  | all
  deriving DecidableEq, Repr

/-- **Chunk**: what is printed in one go. -/
structure Chunk where
  breaks : Breaks
  /-- How many elements are open around it. -/
  depth : Nat
  written : Text
  deriving DecidableEq, Repr

/-- The body of a comment with its lines moved to an indentation. -/
def movedComment (body indent : Text) : Text := Text.join ['\n'] (commentLines body indent)

mutual

/-- The chunks of a node at a depth, in order. -/
def chunks (unit : IndentUnit) (depth : Nat) : Node → List Chunk
  | .element tag children =>
    if children.all Node.isLayout then
      [⟨.leading, depth, tag.generatedStart ++ ['/', '>']⟩]
    else
      ⟨.leading, depth, tag.generatedStart ++ ['>']⟩
        :: allChunks unit (depth + 1) children
        ++ [⟨.leading, depth, ['<', '/'] ++ tag.name ++ ['>']⟩]
  | .text raw => if Text.isSpaces raw then [] else [⟨.none, depth, Text.trim raw⟩]
  | .comment raw =>
    [⟨.all, depth,
      ['<', '!', '-', '-'] ++ movedComment (commentBody raw) (unit.indent depth) ++ ['-', '-', '>']⟩]
  | .other markup => [⟨.none, depth, markup⟩]

/-- The chunks of several nodes. -/
def allChunks (unit : IndentUnit) (depth : Nat) : List Node → List Chunk
  | [] => []
  | n :: ns => chunks unit depth n ++ allChunks unit depth ns

end

/-- Does the chunk begin a line where one may begin? -/
def Chunk.beginsLine (c : Chunk) : Bool := c.breaks != .none

/-- What is printed of a chunk: with a line feed and the indentation in front, if it begins a line. -/
def Chunk.print (unit : IndentUnit) (fresh : Bool) (c : Chunk) : Text :=
  if fresh && c.beginsLine then '\n' :: unit.indent c.depth ++ c.written else c.written

/-- The bytes at which lines end in a print that begins at byte `o`. -/
def Breaks.places (o : Nat) (print : Text) : Breaks → List Nat
  | none => []
  | leading => if print.head? = some '\n' then [o] else []
  | all => LineIndex.breaksFrom o print

/-- **The print of chunks** from byte `o` on, with the bytes at which lines end.  `fresh` tells whether
    a tag or a comment may begin a line there. -/
def printed (unit : IndentUnit) (fresh : Bool) (o : Nat) : List Chunk → Text × List Nat
  | [] => ([], [])
  | c :: cs =>
    let print := c.print unit fresh
    let (rest, places) := printed unit c.beginsLine (o + print.size) cs
    (print ++ rest, c.breaks.places o print ++ places)

/-- The bytes `[a, b)` of a print. -/
def cutOut (print : Text) (a b : Nat) : Except Markup.Error Text :=
  match print.slice? a b with
  | some line => .ok line
  | none => .error (.unrenderable "invalid utf-8 sequence")

/-- **A print cut at bytes**, from byte `start` on; the byte at each place is left out. -/
def cutAt (print : Text) (start : Nat) : List Nat → Except Markup.Error (List Text)
  | [] => do
    let last ← cutOut print start print.size
    return [last]
  | place :: places => do
    let line ← cutOut print start place
    let lines ← cutAt print (place + 1) places
    return line :: lines

/-- **The lines of an element**, the first of them not indented. -/
def printedLines (unit : IndentUnit) (e : Element) : Except Markup.Error (List Text) :=
  let (print, places) := printed unit false 0 (chunks unit 0 e.toNode)
  cutAt print 0 places

end XmlGraft.Layout
