/-
  Copied — the tree as markup, with what did not change copied from the source.

  An element in which nothing changed is copied in one piece, from its start tag to its end tag.
  Any other is put together: its tags are copied one by one, as far as they still say what the
  element is, and its children stand between them.  There is no text when a range that has to be
  copied does not fall on characters of the source.

  * `Tag.recut?`          a tag with its excerpts taken from the source again
  * `Node.copied?`        a node as markup
  * `Document.copied?`    a document as text

  `Node.written` puts all elements together, from the excerpts that were kept when they were read.
  That the two give the same text is not so by definition: it is a theorem about the trees that
  edits, routes and fields make of a document that was read, and about these trees with a marker in
  them.  A tree that was put together by hand may remember a source that it never came from, and
  then the two differ.
-/
import XmlGraft.Markup.Document

namespace XmlGraft.Markup

/-- The excerpt that the source has at the same range. -/
def Excerpt.recut? (source : Text) (x : Excerpt) : Option Excerpt :=
  (source.slice? x.range.start x.range.stop).map fun text => ⟨x.range, text⟩

namespace Tag

/-- **The tag as its source says it now**; a start tag that changed is not looked up. -/
def recut? (source : Text) (t : Tag) : Option Tag :=
  match t.origin with
  | none => some t
  | some o => do
    -- a start tag that changed is generated, so where it stood does not matter
    let opening ← if t.tagChanged then some o.opening else o.opening.recut? source
    match o.closing with
    | none => return { t with origin := some ⟨o.position, opening, none⟩ }
    | some x =>
      let closing ← x.recut? source
      return { t with origin := some ⟨o.position, opening, some closing⟩ }

end Tag

mutual

/-- **The node as markup**, unchanged elements in one piece. -/
def Node.copied? (source : Text) : Node → Option Text
  | .element tag children =>
    -- nothing changed, so the children are not looked at
    if tag.isPristine && allPristine children then
      tag.origin.bind fun o => source.slice? o.range.start o.range.stop
    else do
      let cut ← tag.recut? source
      if children.isEmpty && cut.isSingle then return cut.single
      else
        let inner ← allCopied? source children
        return cut.opening ++ inner ++ cut.closing
  | .text raw => some raw
  | .comment raw => some raw
  | .other markup => some markup

/-- The nodes as markup, one behind the other. -/
def allCopied? (source : Text) : List Node → Option Text
  | [] => some []
  | n :: ns => do
    let first ← n.copied? source
    let rest ← allCopied? source ns
    return first ++ rest

end

/-- **Document to text**, unchanged elements copied from the source. -/
def Document.copied? (d : Document) : Option Text := do
  let root ← d.root.toNode.copied? d.source.text
  return d.prolog ++ root ++ d.epilog

end XmlGraft.Markup
