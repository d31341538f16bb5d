/-
  Comment — laying out a comment that spans several lines.

  The lines after the first are moved as a block: the indentation they share is taken away and that
  of the comment's own level put in its place.  Lines without content are emptied, but for the last
  one, on which the comment ends.

  * `linesOf`        the lines of a text, without their carriage returns
  * `sharedIndent`   the blanks that all lines with content begin with
  * `commentLines`   the body of a comment at an indentation

  The first line stands behind the delimiter and has no indentation of its own, so it is left out
  when the shared one is found.  A tab and a space are different blanks: lines that are indented by
  one and by the other share nothing, and each keeps its own blanks behind the new indentation.
-/
import XmlGraft.Text.Blank

namespace XmlGraft.Layout

/-- Go on where the lines end: the last line is continued by the first of the others. -/
def continueLines : List Text → List Text → List Text
  | [], more => more
  | [line], [] => [line]
  | [line], next :: more => (line ++ next) :: more
  | line :: lines, more => line :: continueLines lines more

/-- The lines of a text, without the carriage return that may end each. -/
def linesOf (t : Text) : List Text :=
  (Text.splitOn '\n' t).map fun line => (Text.dropEnd? line ['\r']).getD line

/-- The longest common beginning of two texts. -/
def commonStart : Text → Text → Text
  | a :: s, b :: t => if a = b then a :: commonStart s t else []
  | _, _ => []

/-- The indentation that all lines with content share. -/
def sharedIndent (lines : List Text) : Text :=
  match (lines.filter (!Text.isSpaces ·)).map Text.leadingBlanks with
  | [] => []
  | first :: more => more.foldl commonStart first

/-- A line moved from the shared indentation to `indent`. -/
def moveLine (shared indent line : Text) : Text :=
  if Text.isSpaces line then [] else indent ++ line.drop shared.length

/-- The lines after the first, moved to `indent`. -/
def moveLines (shared indent : Text) : List Text → List Text
  | [] => []
  -- the end delimiter stands on this line, so it is indented even when it holds nothing else
  | [last] => [if Text.isSpaces last then indent else moveLine shared indent last]
  | line :: lines => moveLine shared indent line :: moveLines shared indent lines

/-- **The body of a comment as lines**, moved to the indentation `indent`. -/
def commentLines (body indent : Text) : List Text :=
  match linesOf body with
  | [] => []
  | first :: more => first :: moveLines (sharedIndent more) indent more

end XmlGraft.Layout
