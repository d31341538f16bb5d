/-
  Tree — the elements of a document and what stands between them.

  A tree remembers where it came from.  An element that was read from a text carries its tags as
  they stand there (`Origin`); one built in memory carries nothing.  Two flags tell what changed
  since: the content, or the start tag.  An element is `isPristine` when it was read and nothing in
  it changed, however deep.

  * `Node`, `Element`     the tree; an element is the node with a tag
  * `Element.isPristine`  nothing changed since it was read
  * `Element.text`        its text, resolved and trimmed
  * `setAttribute`, `setText`  two of the edits; `editChildren` and `append` change the list of
                               children

  A flag is raised in the element that changed and not in those around it: whether an element is
  pristine is asked of all elements in it, so a change further down shows without being passed on.
  This is why an element can be put in the place of another (`putChild`) without a flag.  An edit
  that finds nothing to do raises no flag, with one exception: `editChildren` does not look at what
  it was given and always raises it.

  Text is kept escaped, as it stood or as it will be written, so writing does not depend on what the
  text is about.  `text` resolves it, and leaves a reference that cannot be resolved as it is.
-/
import XmlGraft.Markup.Attribute
import XmlGraft.Source.Basic

namespace XmlGraft.Markup

/-- **Excerpt**: a range of bytes of a source and the characters that start in it. -/
structure Excerpt where
  range : ByteRange
  text : Text
  deriving DecidableEq, Repr

/-- **Origin** of an element that was read: its tags as they stand in the source. -/
structure Origin where
  /-- Line and column of the start tag; none when it starts inside a character. -/
  position : Option Position
  /-- The start tag, from `<` to `>`. -/
  opening : Excerpt
  /-- The end tag; none for an element written as one tag. -/
  closing : Option Excerpt
  deriving DecidableEq, Repr

/-- The bytes from the start tag to the end tag. -/
def Origin.range (o : Origin) : ByteRange :=
  ⟨o.opening.range.start, (o.closing.getD o.opening).range.stop⟩

/-- **Tag**: what an element is apart from its content. -/
structure Tag where
  name : Text
  attributes : List Attribute
  /-- Where the element was read. -/
  origin : Option Origin
  /-- The list of children was changed. -/
  contentChanged : Bool
  /-- The attributes were changed. -/
  tagChanged : Bool
  deriving DecidableEq, Repr

/-- **Node**: an element or what stands between elements.  Text is kept escaped; a comment is
    kept with its delimiters; other markup (sections, instructions) is carried along as it is. -/
inductive Node
  | element (tag : Tag) (children : List Node)
  | text (raw : Text)
  | comment (raw : Text)
  | other (markup : Text)
  deriving Repr

/-- **Element**: a tag and its children. -/
structure Element where
  tag : Tag
  children : List Node
  deriving Repr

/-- The element as a node. -/
def Element.toNode (e : Element) : Node := .element e.tag e.children

/-- The element that a node is. -/
def Node.element? : Node → Option Element
  | element tag children => some ⟨tag, children⟩
  | _ => none

/-! ## Equality -/

mutual

/-- Are two nodes the same, origins and flags included? -/
def Node.same : Node → Node → Bool
  | .element tag children, .element tag' children' => tag == tag' && allSame children children'
  | .text raw, .text raw' => raw == raw'
  | .comment raw, .comment raw' => raw == raw'
  | .other markup, .other markup' => markup == markup'
  | _, _ => false

/-- Are two lists of nodes the same, one by one? -/
def allSame : List Node → List Node → Bool
  | [], [] => true
  | n :: ns, n' :: ns' => n.same n' && allSame ns ns'
  | _, _ => false

end

mutual

theorem Node.same_iff (n n' : Node) : n.same n' = true ↔ n = n' := by
  cases n with
  | element tag children =>
    cases n' <;> simp [Node.same, allSame_iff children]
  | _ => cases n' <;> simp [Node.same]

theorem allSame_iff (ns ns' : List Node) : allSame ns ns' = true ↔ ns = ns' := by
  cases ns with
  | nil => cases ns' <;> simp [allSame]
  | cons n ns => cases ns' <;> simp [allSame, Node.same_iff n, allSame_iff ns]

end

instance : DecidableEq Node := fun n n' => decidable_of_iff _ (Node.same_iff n n')

deriving instance DecidableEq for Element

/-! ## Nodes -/

namespace Node

/-- A text node that stands for `value`. -/
def ofText (value : Text) : Node := .text (escapeText value)

/-- A comment with the given body. -/
def ofComment (body : Text) : Node := .comment (['<', '!', '-', '-'] ++ body ++ ['-', '-', '>'])

/-- Text that holds nothing but spaces. -/
def isLayout : Node → Bool
  | text raw => Text.isSpaces raw
  | _ => false

end Node

/-- The body of a comment, without its delimiters. -/
def commentBody (raw : Text) : Text :=
  let inner := (Text.dropStart? raw ['<', '!', '-', '-']).getD raw
  (Text.dropEnd? inner ['-', '-', '>']).getD inner

/-! ## Pristine elements -/

/-- Was the element read, and are its tag and its list of children unchanged? -/
def Tag.isPristine (t : Tag) : Bool := t.origin.isSome && !t.contentChanged && !t.tagChanged

mutual

/-- Did nothing change in the node since it was read? -/
def Node.isPristine : Node → Bool
  | .element tag children => tag.isPristine && allPristine children
  | _ => true

/-- Did nothing change in any of the nodes? -/
def allPristine : List Node → Bool
  | [] => true
  | n :: ns => n.isPristine && allPristine ns

end

namespace Element

/-- **Pristine**: read from a source, and nothing in it has changed. -/
def isPristine (e : Element) : Bool := e.toNode.isPristine

/-! ## Looking into an element -/

/-- The name as written, with its namespace prefix if it has one. -/
def name (e : Element) : Text := e.tag.name

/-- The attributes in order. -/
def attributes (e : Element) : List Attribute := e.tag.attributes

/-- Line and column of the start tag of an element that was read. -/
def position? (e : Element) : Option Position := e.tag.origin.bind (·.position)

/-- Is the place of the element in a source known? -/
def isLocated (e : Element) : Bool := e.position?.isSome

/-- The value of an attribute. -/
def attribute? (e : Element) (name : Text) : Option Text :=
  (e.attributes.find? (·.name == name)).map (·.value)

/-- The child elements in order, each with its index among all children. -/
def childElements (e : Element) : List (Nat × Element) :=
  e.children.zipIdx.filterMap fun (node, i) => node.element?.map (i, ·)

/-- The first child element that satisfies `p`, with its index. -/
def findChild? (e : Element) (p : Element → Bool) : Option (Nat × Element) :=
  e.childElements.find? (p ·.2)

/-- The first child element of a name. -/
def child? (e : Element) (name : Text) : Option Element :=
  (e.findChild? (·.name == name)).map (·.2)

/-- The index of the first child element of a name. -/
def childIndex? (e : Element) (name : Text) : Option Nat :=
  (e.findChild? (·.name == name)).map (·.1)

/-- **The element's own text**: its text nodes, resolved, joined and trimmed. -/
def text (e : Element) : Text :=
  Text.trim (e.children.flatMap fun
    | .text raw => resolveOrSame raw
    | _ => [])

/-- The text of the first child element of a name. -/
def childText? (e : Element) (name : Text) : Option Text := (e.child? name).map (·.text)

/-! ## Building elements -/

/-- An element without attributes and children that comes from no source. -/
def named (name : Text) : Element := ⟨⟨name, [], none, false, false⟩, []⟩

/-- The nodes that stand for a value: one text node, or none when there is no text. -/
def valueNodes (value : Text) : List Node := if value.isEmpty then [] else [.ofText value]

/-- An element whose content is `value`. -/
def ofValue (name value : Text) : Element := { named name with children := valueNodes value }

/-! ## Editing -/

/-- **Change the list of children**; the element counts as changed, whatever `edit` does. -/
def editChildren (edit : List Node → List Node) (e : Element) : Element :=
  { tag := { e.tag with contentChanged := true }, children := edit e.children }

/-- Add a node behind the children. -/
def append (node : Node) (e : Element) : Element := e.editChildren (· ++ [node])

/-- Put another element at the place of child `i`, which does not count as a change of the
    parent: the flags of the child tell. -/
def putChild (e : Element) (i : Nat) (child : Element) : Element :=
  { e with children := e.children.set i child.toNode }

/-- **Set an attribute**: in place if there is one of the name, behind the others if not.
    Setting the value it has changes nothing. -/
def setAttribute (name value : Text) (e : Element) : Element :=
  -- an attribute that has the value already is no change, and the start tag stays as it was read
  if e.attribute? name = some value then e
  else
    let attributes :=
      if (e.attribute? name).isSome then
        let (before, after) := e.attributes.span (·.name != name)
        before ++ ⟨name, value⟩ :: after.drop 1
      else e.attributes ++ [⟨name, value⟩]
    { e with tag := { e.tag with attributes, tagChanged := true } }

/-- Is `value` what the children stand for, with no other node beside it? -/
def holds (e : Element) (value : Text) : Bool :=
  match e.children with
  | [] => value.isEmpty
  -- values are compared resolved: the same value may be escaped in more than one way
  | [.text raw] => resolveOrSame raw == value
  | _ => false

/-- **Set the content to a value**; an element that holds it already is left as it is. -/
def setText (value : Text) (e : Element) : Element :=
  if e.holds value then e else e.editChildren fun _ => valueNodes value

end Element

end XmlGraft.Markup
