/-
  Document — one root element and the text around it.

  The events of a source are put together by a stack of open elements.  An event that cannot stand
  where it does ends the reading, and so does markup that cannot be read; the first of them in the
  text decides the error.  What stands before and behind the root element is kept as text.

  * `Builder.step`      one event more
  * `Document.parse`    text to document
  * `Document.written`  document to text

  What is read is what the recorded ranges say, excerpts and all, and not the tokens they were made
  from.  For a text with at most one byte-order mark the two are the same.  Behind two marks the
  ranges are three bytes short, so the tree is made of shifted excerpts; and where such a range ends
  inside a character, as for two marks before `<a>éé</a>`, a reader that cuts bytes stops abruptly,
  while this one takes the characters that start in the range and gives a document.

  Outside the root element there may be comments, instructions and blank text, which become part of
  the prolog or the epilog.  A CDATA section is passed over there as well: it is no event that ends
  the reading.  Declarations may stand before the root element only.

  An element is complete with its end tag, and only then becomes a child of the one around it.
  Until then its children are in reverse order, the last one first.
-/
import XmlGraft.Markup.Error
import XmlGraft.Markup.Event
import XmlGraft.Markup.Written

namespace XmlGraft.Markup

/-- **Document**: a root element, what surrounds it, and the source it was read from. -/
structure Document where
  source : Source
  /-- What stands before the root element. -/
  prolog : Text
  root : Element
  /-- What stands behind the root element. -/
  epilog : Text

/-- An element whose end tag was not read yet; its children are in reverse order. -/
structure OpenElement where
  tag : Tag
  reversed : List Node
  deriving Repr

/-- Byte of the start tag of an open element. -/
def OpenElement.start (o : OpenElement) : Nat :=
  match o.tag.origin with
  | some origin => origin.range.start
  | none => 0

/-- **Builder**: what the events so far make up. -/
structure Builder where
  /-- The open elements, the innermost first. -/
  openElements : List OpenElement
  /-- The root element, once it is complete. -/
  root : Option Element
  deriving Repr

namespace Builder

/-- Nothing read yet. -/
def start : Builder := ⟨[], none⟩

/-- Add a node to the innermost open element; outside the root it is not part of the tree. -/
def push (b : Builder) (node : Node) : Builder :=
  match b.openElements with
  | [] => b
  | parent :: outer =>
    { b with openElements := { parent with reversed := node :: parent.reversed } :: outer }

/-- Add a complete element that starts at byte `start`: to its parent, or as the root. -/
def attach (b : Builder) (element : Element) (start : Nat) : Except Error Builder :=
  match b.openElements with
  | _ :: _ => .ok (b.push element.toNode)
  | [] =>
    match b.root with
    | some _ => .error (.secondRoot (some start))
    | none => .ok { b with root := some element }

/-- Has the root element begun? -/
def begun (b : Builder) : Bool := !b.openElements.isEmpty || b.root.isSome

/-- The tag of an element that starts with the event. -/
def tagOf (e : Event) (content : Text) : Except Error Tag :=
  match attributes content with
  | .error fault => .error (.malformed fault.message (some e.start))
  | .ok attributes =>
    .ok ⟨tagName content, attributes, some ⟨e.position, e.excerpt, none⟩, false, false⟩

/-- A start tag opens an element. -/
def openElement (b : Builder) (e : Event) (content : Text) : Except Error Builder :=
  if b.openElements.isEmpty && b.root.isSome then .error (.secondRoot (some e.start))
  else do
    let tag ← tagOf e content
    return { b with openElements := ⟨tag, []⟩ :: b.openElements }

/-- A single tag is an element without content. -/
def emptyElement (b : Builder) (e : Event) (content : Text) : Except Error Builder := do
  let tag ← tagOf e content
  b.attach ⟨tag, []⟩ e.start

/-- The name in an end tag: its content without the white space at the end, unless there is
    nothing else. -/
def closingName (content : Text) : Text :=
  if content.all isTagSpace then content else (content.reverse.dropWhile isTagSpace).reverse

/-- An end tag closes the innermost open element, if that has its name. -/
def closeElement (b : Builder) (e : Event) (content : Text) : Except Error Builder :=
  let name := closingName content
  match b.openElements with
  | [] =>
    .error (.malformed
      s!"ill-formed document: close tag `</{String.ofList name}>` does not match any open tag"
      (some e.start))
  | inner :: outer =>
    -- names are compared as written, with their prefixes
    if inner.tag.name = name then
      let origin := inner.tag.origin.map fun o => { o with closing := some e.excerpt }
      let element : Element := ⟨{ inner.tag with origin }, inner.reversed.reverse⟩
      { b with openElements := outer }.attach element inner.start
    else
      .error (.mismatched (String.ofList inner.tag.name) (String.ofList name) (some e.start))

/-- Character data: its references must resolve, and outside the root it must be blank. -/
def addText (b : Builder) (e : Event) (raw : Text) : Except Error Builder :=
  -- references are checked inside and outside the root element, the text is kept unresolved
  match resolve raw with
  | .error fault => .error (.malformed ("invalid text content: " ++ fault.message) (some e.start))
  | .ok _ =>
    if b.openElements.isEmpty && !Text.isSpaces e.excerpt.text then
      .error (.misplaced "text outside the root element" (some e.start))
    else .ok (b.push (.text e.excerpt.text))

/-- A declaration may only stand before the root element. -/
def declaration (b : Builder) (e : Event) : Except Error Builder :=
  if b.begun then
    .error (.misplaced "declaration after the start of the root element" (some e.start))
  else .ok b

/-- **One event more.** -/
def step (b : Builder) (e : Event) : Except Error Builder :=
  match e.token with
  | .characters raw => b.addText e raw
  | .comment _ => .ok (b.push (.comment e.excerpt.text))
  | .cdata _ => .ok (b.push (.other e.excerpt.text))
  | .instruction _ => .ok (b.push (.other e.excerpt.text))
  | .declaration _ => b.declaration e
  | .doctype _ => b.declaration e
  | .opening content => b.openElement e content
  | .empty content => b.emptyElement e content
  | .closing content => b.closeElement e content

/-- The root element at the end of the text. -/
def finish (b : Builder) : Except Error Element :=
  match b.openElements, b.root with
  | inner :: _, _ =>
    .error (.unfinished s!"closing tag </{String.ofList inner.tag.name}>" (some inner.start))
  | [], some root => .ok root
  | [], none => .error .noRoot

end Builder

namespace Document

/-- **Text to document.** -/
def parse (text : Text) : Except Error Document := do
  let source := Source.ofText text
  let reading := Reading.ofSource source
  let built ← reading.events.foldlM Builder.step Builder.start
  match reading.misread with
  -- the events end before the markup that cannot be read, so a fault among them comes first
  | some (fault, offset) => .error (.malformed fault.message (some offset))
  | none =>
    let root ← built.finish
    let range := (root.tag.origin.map (·.range)).getD ⟨0, 0⟩
    return ⟨source, text.takeBytes range.start, root, text.dropBytes range.stop⟩

/-- **Document to text.** -/
def written (d : Document) : Text := d.prolog ++ d.root.written ++ d.epilog

end Document

end XmlGraft.Markup
