/-
  Written — the tree as markup.

  An element that was read is written with its own tags, character for character, as long as they
  still say what it is: the end tag always, the start tag until an attribute changes.  Everything
  else is generated, compactly.  Text, comments and other markup are written as they are kept.  So
  what was not changed comes out as it stood in the source.

  * `Tag.opening`, `Tag.closing`, `Tag.single`   the tags of an element
  * `Node.written`                               a node as markup

  Whether an element is written as one tag or as two depends on both its content and its source.
  Without content it keeps the form in which it was read.  With content it has two tags in any case,
  and where the source has but one, that one loses its slash, with the spaces before it, and the end
  tag is generated.  An element that comes from no source and has no content is one tag.
-/
import XmlGraft.Markup.Tree

namespace XmlGraft.Markup

namespace Tag

/-- Was the element written as one tag?  One that comes from no source counts as such. -/
def isSingle (t : Tag) : Bool :=
  match t.origin with
  | some origin => origin.closing.isNone
  | none => true

/-- The start tag of the source, while the attributes are as it says. -/
def sourceOpening? (t : Tag) : Option Text :=
  if t.tagChanged then none else t.origin.map (·.opening.text)

/-- `<name attr="value"`, without the closing bracket. -/
def generatedStart (t : Tag) : Text :=
  '<' :: t.name ++ t.attributes.flatMap fun a => ' ' :: a.written

/-- A tag `<name ... />` without its end and the spaces before it, so that content can follow. -/
def withoutSlash (opening : Text) : Text :=
  Text.trimEnd ((Text.dropEnd? opening ['/', '>']).getD opening)

/-- The whole element, for one without content that was written as one tag. -/
def single (t : Tag) : Text := t.sourceOpening?.getD (t.generatedStart ++ ['/', '>'])

/-- The tag before the content. -/
def opening (t : Tag) : Text :=
  match t.sourceOpening? with
  | some tag => if t.isSingle then withoutSlash tag ++ ['>'] else tag
  | none => t.generatedStart ++ ['>']

/-- The tag behind the content. -/
def closing (t : Tag) : Text :=
  match t.origin.bind (·.closing) with
  | some tag => tag.text
  | none => ['<', '/'] ++ t.name ++ ['>']

end Tag

mutual

/-- **The node as markup.** -/
def Node.written : Node → Text
  | .element tag children =>
    -- two tags that were read with nothing between them stay two tags
    if children.isEmpty && tag.isSingle then tag.single
    else tag.opening ++ writtenAll children ++ tag.closing
  | .text raw => raw
  | .comment raw => raw
  | .other markup => markup

/-- The nodes as markup, one behind the other. -/
def writtenAll : List Node → Text
  | [] => []
  | n :: ns => n.written ++ writtenAll ns

end

/-- **The element as markup.** -/
def Element.written (e : Element) : Text := e.toNode.written

end XmlGraft.Markup
