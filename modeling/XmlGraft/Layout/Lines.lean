/-
  Lines — an element laid out on lines of its own.

  The layout looks at the tree alone, not at the source it may come from:

  * every level is indented by one unit;
  * text of spaces alone is left out, other text is trimmed;
  * a tag or a comment begins a line, unless text or other markup stands right before it;
  * an element without content is one tag, and one with only text stays on its line.

  A line may hold line feeds of its own, those of a text or of an attribute value: they are content,
  and whoever indents the lines leaves them alone.  The lines of a comment are lines.

  A tree is first taken apart into pieces, each with its depth, and the pieces are then put on
  lines.  So where a line begins is decided in one place (`layOut`), from two pieces that stand next
  to each other, and the recursion along the tree knows nothing of lines.  That printing in one go
  and cutting the print gives the same lines is a theorem.
-/
import XmlGraft.Layout.Comment
import XmlGraft.Layout.IndentUnit
import XmlGraft.Markup.Written

namespace XmlGraft.Layout

open Markup

/-- **Piece**: what is laid out as one. -/
structure Piece where
  /-- Tags and comments begin a line; text and other markup do not. -/
  beginsLine : Bool
  /-- How many elements are open around it. -/
  depth : Nat
  /-- What is written; only a comment has more than one line. -/
  lines : List Text
  deriving DecidableEq, Repr

/-- The lines of a comment at a depth, from its first delimiter to its last. -/
def commentPiece (unit : IndentUnit) (depth : Nat) (raw : Text) : Piece :=
  let body := commentLines (commentBody raw) (unit.indent depth)
  ⟨true, depth, continueLines [['<', '!', '-', '-']] (continueLines body [['-', '-', '>']])⟩

mutual

/-- The pieces of a node at a depth, in order. -/
def pieces (unit : IndentUnit) (depth : Nat) : Node → List Piece
  | .element tag children =>
    if children.all Node.isLayout then
      [⟨true, depth, [tag.generatedStart ++ ['/', '>']]⟩]
    else
      ⟨true, depth, [tag.generatedStart ++ ['>']]⟩
        :: allPieces unit (depth + 1) children
        ++ [⟨true, depth, [['<', '/'] ++ tag.name ++ ['>']]⟩]
  | .text raw => if Text.isSpaces raw then [] else [⟨false, depth, [Text.trim raw]⟩]
  | .comment raw => [commentPiece unit depth raw]
  | .other markup => [⟨false, depth, [markup]⟩]

/-- The pieces of several nodes. -/
def allPieces (unit : IndentUnit) (depth : Nat) : List Node → List Piece
  | [] => []
  | n :: ns => pieces unit depth n ++ allPieces unit depth ns

end

/-- The lines that pieces make up.  The first line continues what stands before; `fresh` tells
    whether a tag or a comment may begin a line there. -/
def layOut (unit : IndentUnit) (fresh : Bool) : List Piece → List Text
  | [] => [[]]
  | p :: ps =>
    let own := continueLines p.lines (layOut unit p.beginsLine ps)
    -- a line begins where one may begin and the piece begins one; both sides are asked
    if fresh && p.beginsLine then [] :: continueLines [unit.indent p.depth] own else own

/-- **An element on lines**, the first of them not indented. -/
def lines (unit : IndentUnit) (e : Element) : List Text :=
  layOut unit false (pieces unit 0 e.toNode)

/-- The lines in one text. -/
def rendered (unit : IndentUnit) (e : Element) : Text := Text.join ['\n'] (lines unit e)

/-- The lines in one text, each that is not empty behind `base`. -/
def renderedAt (unit : IndentUnit) (base : Text) (e : Element) : Text :=
  Text.join ['\n'] ((lines unit e).map fun line => if line.isEmpty then line else base ++ line)

end XmlGraft.Layout
