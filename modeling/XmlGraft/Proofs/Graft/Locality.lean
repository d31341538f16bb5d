/-
  Locality — a graft changes the text at its site and nowhere else.

  A graft writes the whole document with a marker in it and puts the replacement in the place of the
  marker.  So it is not plain that the rest of the text is the source, byte for byte.  It is, since
  the rest is what was around the site when the document was read, and what was read is written as
  it stood.

  1. **The bytes of a site** (`siteRange`): from the text of spaces before the element, if there is
     one, to the element's end; for a new element, from the spaces before its parent's end tag to
     that tag; for the first content of a parent that was written as one tag, that whole tag.

  2. **What stands in their place** (`insertion`): the replacement.  A parent that was one tag is
     opened for it, so there its two tags are part of what is new.

  3. **Locality** (`graft_text_eq`): in front of the bytes of the site and behind them, the new text
     is the source.  What the graft gives is known in terms of texts (`exists_graft_text`), and the
     bytes are found by their sizes: for a child that was there in `cut_old`, for a new one in
     `cut_new`.

  The three kinds of sites are told by the parent as it was read and the index of the element in it.
  The edit is one that stays inside a child with an index or adds a last child (`EditedChild`),
  which is what an update makes; that the parent was one tag is seen in its origin.
-/
import XmlGraft.Proofs.Graft.Marker
import XmlGraft.Proofs.Markup.Documents

namespace XmlGraft

open Markup

/-! ## The bytes of a site -/

namespace Graft

/-- The text of spaces directly before child `i`; no characters where there is none. -/
def spacesBefore (children : List Node) (i : Nat) : Text :=
  match (children.take i).getLast? with
  | some (.text raw) => if Text.isSpaces raw then raw else []
  | _ => []

/-- **The bytes that a graft of child `i` replaces**, where `i` is one more than the last index for a
    new child. -/
def siteRange (parent : Element) (i : Nat) : ByteRange :=
  let spaces := (spacesBefore parent.children i).size
  match parent.childAt? i, parent.tag.origin.bind (·.closing) with
  | some child, _ => ⟨child.range.start - spaces, child.range.stop⟩
  | none, some closing => ⟨closing.range.start - spaces, closing.range.start⟩
  | none, none => parent.range

/-- **What stands in the place of these bytes**: the replacement, and around it the tags of a parent
    that was written as one. -/
def insertion (parent : Element) (replacement : Text) : Text :=
  match parent.tag.origin with
  | some ⟨_, opening, none⟩ =>
    Tag.withoutSlash opening.text ++ ['>'] ++ replacement ++ (['<', '/'] ++ parent.name ++ ['>'])
  | _ => replacement

/-- **An edit that stays inside one element**: a child with an index, or a new last child. -/
inductive EditedChild (parent : Element) (i : Nat) (element : Element) : Element → Prop
  | old {child : Element} : parent.childAt? i = some child →
      EditedChild parent i element (parent.putChild i element)
  | new : i = parent.children.length →
      EditedChild parent i element (parent.append element.toNode)

/-- **The text before a child** is what a graft keeps of it, and the spaces that it drops.  These
    are one text node at the most, and none if it holds anything else. -/
theorem spacesBefore_append (front back : List Node) :
    writtenAll front
      = writtenAll (cutLayout front) ++ spacesBefore (front ++ back) front.length := by
  rw [spacesBefore, List.take_left]
  rcases List.eq_nil_or_concat front with rfl | ⟨rest, last, rfl⟩
  · rfl
  · rw [List.concat_eq_append, cutLayout, List.getLast?_concat, Option.any_some, List.dropLast_concat]
    cases last with
    | text raw =>
      rw [Node.isLayout]
      cases spaces : Text.isSpaces raw <;> simp [Node.written, spaces]
    | _ => simp [Node.isLayout]

/-- For a child that was read, the bytes are its own and those of the spaces before it. -/
theorem siteRange_old {parent child : Element} {i : Nat} (h : parent.childAt? i = some child) :
    siteRange parent i
      = ⟨child.range.start - (spacesBefore parent.children i).size, child.range.stop⟩ := by
  rw [siteRange, h]

theorem childAt?_length (parent : Element) : parent.childAt? parent.children.length = none := by
  rw [Element.childAt?, List.getElem?_eq_none (Nat.le_refl _)]
  rfl

end Graft

/-! ## Locality -/

open Graft

section

variable {text : Text} {d : Document} (one : AtMostOneMark text) (parsed : Document.parse text = .ok d)
  {p : List Nat} {parent edited element root : Element} (there : d.root.at? ⟨p⟩ = some parent)
  (changed : d.root.changeAt? ⟨p⟩ (fun _ => edited) = some root) {front back : List Node}
  {target : Address} {s : Settings} {markers : Nat → Text} {g : Grafted}
  (site : site? root target = .ok ⟨⟨p⟩, front.length⟩)
  (unmistakable : Unmistakable { d with root } target markers)
  (done : graft { d with root } target s markers = .ok g) (anew : g.element.isSome = true)

include one parsed there changed site unmistakable done anew in
/-- The text that a graft gives, in the text around the parent as it was read. -/
theorem exists_graft_text (tag : edited.tag.opening = parent.tag.opening)
    (tag' : edited.tag.closing = parent.tag.closing) (position : edited.position? = parent.position?)
    (children : edited.children = front ++ element.toNode :: back) :
    ∃ left right unit position, text = left ++ parent.written ++ right ∧
      ReadAt left.size [parent.toNode] ∧ s.unit = .ok unit ∧ parent.position? = some position ∧
      g.text = left ++ (parent.tag.opening ++ (writtenAll (cutLayout front)
        ++ ((Surroundings.of { d with root } s unit position).replacement element back.isEmpty
        ++ (writtenAll back ++ parent.tag.closing)))) ++ right := by
  have read := Document.read_of_parse one parsed
  obtain ⟨left, right, written, place, context⟩ := Element.below?_context there
  -- the parent is changed in the edited tree, where the text around it is the same
  have context' : ∀ f e', root.changeBelow? f p = some e' →
      e'.written = left ++ (f edited).written ++ right := by
    intro f e' again
    rw [Element.changeBelow?_changeBelow? changed] at again
    exact context _ _ again
  rcases graft_cases done site (Element.below?_of_changeBelow? there changed) children unmistakable
    context' with ⟨-, rfl⟩ | ⟨-, unit, here, hunit, located, -, -, result⟩
  · cases anew
  · refine ⟨d.prolog ++ left, right ++ d.epilog, unit, here, ?_, ?_, hunit, ?_, ?_⟩
    · rw [← read.written, Document.written, written]
      simp only [List.append_assoc]
    · rw [Text.size_append]
      exact place _ read.tree
    · rw [← position, located]
    · rw [result, tag, tag']
      simp only [List.append_assoc]

end

/-- A child that was read is replaced together with the spaces before it. -/
theorem cut_old {text left right : Text} {parent child : Element} {front back : List Node}
    (whole : text = left ++ parent.written ++ right) (read : ReadAt left.size [parent.toNode])
    (children : parent.children = front ++ child.toNode :: back) (r : Text) :
    left ++ (parent.tag.opening ++ (writtenAll (cutLayout front)
        ++ (r ++ (writtenAll back ++ parent.tag.closing)))) ++ right
      = text.takeBytes (siteRange parent front.length).start ++ insertion parent r
        ++ text.dropBytes (siteRange parent front.length).stop := by
  have at_ := Element.childAt?_eq_some_iff.2 ⟨front, back, children, rfl⟩
  -- a parent with a child has two tags
  rcases read.tags with ⟨_, _, _, single, -⟩ | ⟨position, opening, closing, origin, written, -⟩
  · rw [children] at single
    exact absurd single (by simp)
  rcases read.element.2.2.2 with ⟨single, -⟩ | ⟨-, inner⟩
  · rw [children] at single
    exact absurd single (by simp)
  rw [children, readAt_append] at inner
  have range := inner.2.element.2.1
  have spaces := spacesBefore_append front (child.toNode :: back)
  have insert : insertion parent r = r := by rw [insertion, origin]
  -- the source, cut where the spaces begin and where the child ends
  have pieces : text = (left ++ parent.tag.opening ++ writtenAll (cutLayout front))
      ++ (spacesBefore parent.children front.length ++ child.written)
      ++ (writtenAll back ++ parent.tag.closing ++ right) := by
    rw [whole, written, children, writtenAll_append, writtenAll_cons, spaces]
    simp only [List.append_assoc]
    rfl
  obtain ⟨take, drop⟩ := Text.takeBytes_dropBytes pieces
  have start : (siteRange parent front.length).start
      = (left ++ parent.tag.opening ++ writtenAll (cutLayout front)).size := by
    rw [siteRange_old at_, range, spaces, ← children]
    simp only [Text.size_append]
    omega
  have stop : (siteRange parent front.length).stop
      = ((left ++ parent.tag.opening ++ writtenAll (cutLayout front))
        ++ (spacesBefore parent.children front.length ++ child.written)).size := by
    rw [siteRange_old at_, range, spaces, ← children]
    simp only [Text.size_append]
    omega
  rw [insert, start, stop, take, drop]
  simp only [List.append_assoc]

/-- A new child stands before the end tag, or between the tags that its parent gets. -/
theorem cut_new {text left right : Text} {parent : Element}
    (whole : text = left ++ parent.written ++ right) (read : ReadAt left.size [parent.toNode])
    (r : Text) :
    left ++ (parent.tag.opening ++ (writtenAll (cutLayout parent.children)
        ++ (r ++ parent.tag.closing))) ++ right
      = text.takeBytes (siteRange parent parent.children.length).start ++ insertion parent r
        ++ text.dropBytes (siteRange parent parent.children.length).stop := by
  rcases read.tags with ⟨position, opening, origin, empty, -, tag, tag'⟩ |
    ⟨position, opening, closing, origin, written, start⟩
  -- a parent read as a single tag is opened, and so is new as a whole
  · have insert : insertion parent r = parent.tag.opening ++ r ++ parent.tag.closing := by
      rw [insertion, origin, tag, tag']
    have bytes : siteRange parent parent.children.length
        = ⟨left.size, (left ++ parent.written).size⟩ := by
      rw [siteRange, childAt?_length, origin, Text.size_append]
      exact read.element.2.1
    obtain ⟨take, drop⟩ := Text.takeBytes_dropBytes whole
    rw [insert, bytes, take, drop, empty]
    simp [cutLayout]
  -- a parent with two tags keeps both
  · have insert : insertion parent r = r := by rw [insertion, origin]
    have bytes : siteRange parent parent.children.length
        = ⟨closing.range.start - (spacesBefore parent.children parent.children.length).size,
          closing.range.start⟩ := by
      rw [siteRange, childAt?_length, origin]
      rfl
    have spaces := spacesBefore_append parent.children []
    rw [List.append_nil] at spaces
    -- the source, cut where the spaces before the end tag begin and where the tag does
    have pieces : text = (left ++ parent.tag.opening ++ writtenAll (cutLayout parent.children))
        ++ spacesBefore parent.children parent.children.length
        ++ (parent.tag.closing ++ right) := by
      rw [whole, written, spaces]
      simp only [List.append_assoc]
    obtain ⟨take, drop⟩ := Text.takeBytes_dropBytes pieces
    have stop : closing.range.start
        = ((left ++ parent.tag.opening ++ writtenAll (cutLayout parent.children))
          ++ spacesBefore parent.children parent.children.length).size := by
      rw [start, spaces]
      simp only [Text.size_append]
      omega
    rw [insert, bytes]
    show _ = text.takeBytes (closing.range.start - _) ++ r ++ text.dropBytes closing.range.start
    rw [stop, drop, Text.size_append, Nat.add_sub_cancel, take]
    simp only [List.append_assoc]

/-- **Locality**: the text that a graft gives is the source but for the bytes of its site.  These
    are the bytes of the child, or the place of a new one, with the spaces before it; a parent in
    one tag gives up that tag, since it has to be opened. -/
theorem graft_text_eq {text : Text} {d : Document} (one : AtMostOneMark text)
    (parsed : Document.parse text = .ok d) {p : List Nat} {parent edited element root : Element}
    {i : Nat} (there : d.root.at? ⟨p⟩ = some parent) (edit : EditedChild parent i element edited)
    (changed : d.root.changeAt? ⟨p⟩ (fun _ => edited) = some root) {target : Address} {s : Settings}
    {markers : Nat → Text} {g : Grafted}
    (site : site? root target = .ok ⟨⟨p⟩, i⟩)
    (unmistakable : Unmistakable { d with root } target markers)
    (done : graft { d with root } target s markers = .ok g) (anew : g.element.isSome = true) :
    ∃ unit position, s.unit = .ok unit ∧ parent.position? = some position ∧
      g.text = text.takeBytes (siteRange parent i).start
        ++ insertion parent ((Surroundings.of { d with root } s unit position).replacement element
          (i + 1 == edited.children.length))
        ++ text.dropBytes (siteRange parent i).stop := by
  cases edit with
  | @old child at_ =>
    obtain ⟨front, back, children, rfl⟩ := Element.childAt?_eq_some_iff.1 at_
    have children' : (parent.putChild front.length element).children
        = front ++ element.toNode :: back := by
      rw [Element.putChild_eq children element]
    have last : (front.length + 1 == (parent.putChild front.length element).children.length)
        = back.isEmpty := by
      rw [children']
      cases back <;> simp
    obtain ⟨left, right, unit, position, whole, read, hunit, located, result⟩ :=
      exists_graft_text one parsed there changed site unmistakable done anew rfl rfl rfl children'
    refine ⟨unit, position, hunit, located, ?_⟩
    rw [result, last]
    exact cut_old whole read children _
  | new index =>
    subst index
    have children' : (parent.append element.toNode).children
        = parent.children ++ element.toNode :: [] := rfl
    have last : (parent.children.length + 1 == (parent.append element.toNode).children.length)
        = ([] : List Node).isEmpty := by
      simp [Element.append, Element.editChildren]
    obtain ⟨left, right, unit, position, whole, read, hunit, located, result⟩ :=
      exists_graft_text one parsed there changed site unmistakable done anew rfl rfl rfl children'
    refine ⟨unit, position, hunit, located, ?_⟩
    rw [result, last, writtenAll_nil, List.nil_append]
    exact cut_new whole read _

/-! ### A small document -/

namespace Sample

/-- A document with one child on a line of its own. -/
def text : Text := "<a>\n <b/>\n</a>".toList

/-- The child. -/
def child : Element :=
  ⟨⟨['b'], [], some ⟨some ⟨2, 2⟩, ⟨⟨5, 9⟩, "<b/>".toList⟩, none⟩, false, false⟩, []⟩

/-- The root element. -/
def root : Element :=
  ⟨⟨['a'], [], some ⟨some ⟨1, 1⟩, ⟨⟨0, 3⟩, "<a>".toList⟩, some ⟨⟨10, 14⟩, "</a>".toList⟩⟩, false, false⟩,
    [.text "\n ".toList, child.toNode, .text "\n".toList]⟩

/-- What the text is read as. -/
def document : Document := ⟨Source.ofText text, [], root, []⟩

/-- The marker that is always drawn. -/
def markers : Nat → Text := fun _ => "@M@".toList

/-- The child with an element in it. -/
def changedChild : Element := child.append (Element.named ['c']).toNode

/-- The tree with the changed child. -/
def changedRoot : Element := root.putChild 1 changedChild

theorem parse_text : Document.parse text = .ok document := by with_unfolding_all rfl

theorem unmistakable_changedRoot :
    Unmistakable { document with root := changedRoot } ⟨[1]⟩ markers := by
  intro n _
  refine ⟨by unfold markers; decide, fun site parent found there _ => ?_⟩
  obtain rfl : (⟨⟨[]⟩, 1⟩ : Site) = site := Except.ok.inj (Eq.trans (by with_unfolding_all rfl) found)
  obtain rfl : changedRoot = parent := Option.some.inj (Eq.trans (by with_unfolding_all rfl) there)
  unfold Text.StandsOnce
  with_unfolding_all rfl

end Sample

/-- The child of the small document gets content: the bytes from the end of the start tag before it
    to its own end are replaced. -/
theorem graft_text_eq_changedChild :
    AtMostOneMark Sample.text ∧ Document.parse Sample.text = .ok Sample.document ∧
    EditedChild Sample.root 1 Sample.changedChild Sample.changedRoot ∧
    siteRange Sample.root 1 = ⟨3, 9⟩ ∧
    ∃ g unit position,
      graft { Sample.document with root := Sample.changedRoot } ⟨[1]⟩ .standard Sample.markers = .ok g ∧
      g.text = Sample.text.takeBytes 3
        ++ insertion Sample.root ((Surroundings.of { Sample.document with root := Sample.changedRoot }
          .standard unit position).replacement Sample.changedChild (1 + 1 == 3))
        ++ Sample.text.dropBytes 9 := by
  have edit : EditedChild Sample.root 1 Sample.changedChild Sample.changedRoot :=
    .old (show Sample.root.childAt? 1 = some Sample.child from rfl)
  have range : siteRange Sample.root 1 = ⟨3, 9⟩ := rfl
  obtain ⟨g, done, anew⟩ : ∃ g,
      graft { Sample.document with root := Sample.changedRoot } ⟨[1]⟩ .standard Sample.markers = .ok g ∧
      g.element.isSome = true :=
    ⟨⟨"<a>\n    <b>\n        <c/>\n    </b>\n</a>".toList, true, some ['b'], some ⟨1, 1⟩⟩, by with_unfolding_all rfl, rfl⟩
  have there : Sample.document.root.at? ⟨[]⟩ = some Sample.root := rfl
  obtain ⟨unit, position, -, -, result⟩ := graft_text_eq (by decide) Sample.parse_text there edit rfl
    (by with_unfolding_all rfl) Sample.unmistakable_changedRoot done anew
  rw [range] at result
  exact ⟨by decide, Sample.parse_text, edit, range, g, unit, position, done, result⟩

end XmlGraft
