/-
  Marker — what the text is in which a marker was replaced.

  To find the place of an element in the text of the whole document, a marker is written there and
  looked for.  The markers are drawn until one is fresh: it is not in the source, and it is counted
  once in the marked document.  The count leaves out occurrences that overlap with one before them,
  so it does not settle where the marker stands.  What does is that it stands at exactly one offset,
  overlaps counted; this is taken as a hypothesis where it is needed (`Unmistakable`), and only of
  markers that are taken.

  1. **One place** (`StandsOnce`): a marker that stands at one offset of a text is replaced there
     (`replaceFirst_of_standsOnce`).

  2. **The marked document** (`mark_eq`): the parent's tags around its other children, with the
     marker between them, in the text around the parent.  A marker is written as a text, so it must
     not be changed by escaping (`PlainMarker`).

  3. **The graft taken apart** (`atSite_eq`, `exists_of_graft`): if it succeeds it has found a site,
     with a parent that was read; the element there did not change, or a marker was replaced.

  4. **What a graft gives** (`graft_cases`): an element that did not change leaves the document as
     it is written; one that did is replaced, and the rest of the text stays.

  The supply is a function from numbers, and nothing is known of it but that it is one.  Hence the
  conditions are about the markers that can be tried, and that one stands once is asked only where
  the program would take it.  A marker without brackets, ampersands and an end that is its own
  beginning satisfies them in every document.
-/
import XmlGraft.Proofs.Edit.Places
import XmlGraft.Proofs.Graft.Printed
import XmlGraft.Proofs.Markup.References

namespace XmlGraft

open Markup

/-! ## One place -/

/-- The offsets, in characters, at which `m` stands in a text, overlaps counted. -/
def Text.offsets (m t : Text) : List Nat :=
  (List.range (t.length + 1)).filter fun i => m.isPrefixOf (t.drop i)

/-- **Exactly one offset.** -/
def Text.StandsOnce (m t : Text) : Prop := (Text.offsets m t).length = 1

/-- An offset is a place in the text, or its end, where the marker stands. -/
theorem Text.mem_offsets {m t : Text} {i : Nat} :
    i ∈ Text.offsets m t ↔ i ≤ t.length ∧ m <+: t.drop i := by
  rw [Text.offsets, List.mem_filter, List.mem_range, List.isPrefixOf_iff_prefix, Nat.lt_succ_iff]

theorem Text.StandsOnce.unique {m t : Text} (h : Text.StandsOnce m t) {i j : Nat}
    (hi : i ≤ t.length ∧ m <+: t.drop i) (hj : j ≤ t.length ∧ m <+: t.drop j) : i = j := by
  obtain ⟨k, only⟩ := List.length_eq_one_iff.1 h
  have hi := Text.mem_offsets.2 hi
  have hj := Text.mem_offsets.2 hj
  rw [only, List.mem_singleton] at hi hj
  rw [hi, hj]

/-- **A marker that stands at one offset is replaced there.**  Standing at one offset is more than
    being counted once, since counting goes on behind each occurrence. -/
theorem Text.replaceFirst_of_standsOnce {m before after : Text}
    (h : Text.StandsOnce m (before ++ m ++ after)) (r : Text) :
    Text.replaceFirst (before ++ m ++ after) m r = before ++ r ++ after := by
  -- the first place that is found is the only one, so nothing before it is hit
  have first : Text.EndsFirst m before := by
    intro j hj here
    have same : j = before.length := by
      refine h.unique ⟨?_, ?_⟩ ⟨?_, ?_⟩
      · simp only [List.length_append]
        omega
      · exact (Text.prefix_drop_append (Nat.le_of_lt hj)).2 here
      · simp only [List.length_append]
        omega
      · rw [List.append_assoc, List.drop_left]
        exact List.prefix_append _ _
    omega
  rw [Text.replaceFirst, Text.cut?_eq_some_iff.2 ⟨rfl, first⟩]

namespace Graft

/-! ## The marked document -/

/-- A marker of characters that are written as they are.  The markers that are drawn are such: signs,
    letters and digits between two `@`. -/
def PlainMarker (m : Text) : Prop := ∀ c ∈ m, c ∉ ['<', '>', '&']

instance (m : Text) : Decidable (PlainMarker m) :=
  decidable_of_iff ((m.all fun c => c != '<' && c != '>' && c != '&') = true) (by
    simp [PlainMarker, and_assoc])

theorem escapeText_of_plain {m : Text} (h : PlainMarker m) : escapeText m = m := by
  induction m with
  | nil => rfl
  | cons c m ih =>
    have own := h c List.mem_cons_self
    simp only [List.mem_cons, List.not_mem_nil, or_false, not_or] at own
    have same : escapeTextChar c = [c] := by
      unfold escapeTextChar
      split <;> simp_all
    rw [escapeText, List.flatMap_cons, same]
    exact congrArg (c :: ·) (ih fun d hd => h d (List.mem_cons_of_mem _ hd))

/-- **The document with a marker in the place of an element.** -/
def marked (d : Document) (site : Site) (parent : Element) (marker : Text) : Text :=
  let (children, i) := withoutLayoutBefore parent.children site.index
  mark d site.parent children i marker

/-- **No marker that is taken can be mistaken**: it is plain, and it stands at exactly one offset of
    the marked document. -/
def Unmistakable (d : Document) (target : Address) (markers : Nat → Text) : Prop :=
  ∀ n < maxAttempts, PlainMarker (markers n) ∧
    ∀ site parent, site? d.root target = .ok site → d.root.at? site.parent = some parent →
      (placed? d.source.text (marked d site parent) [] (markers n)).isSome = true →
      Text.StandsOnce (markers n) (marked d site parent (markers n))

/-- **Every marker that is taken can be told from the text around it**, whatever the others are. -/
def Told (d : Document) (target : Address) (markers : Nat → Text) : Prop :=
  ∀ n < maxAttempts, ∀ site parent, site? d.root target = .ok site →
    d.root.at? site.parent = some parent →
    (placed? d.source.text (marked d site parent) [] (markers n)).isSome = true →
    PlainMarker (markers n) ∧ Text.StandsOnce (markers n) (marked d site parent (markers n))

/-- A marker that cannot be mistaken can be told from its text when it is taken. -/
theorem Unmistakable.told {d : Document} {target : Address} {markers : Nat → Text}
    (h : Unmistakable d target markers) : Told d target markers := by
  intro n hn site parent atSite found accepted
  obtain ⟨plain, once⟩ := h n hn
  exact ⟨plain, once site parent atSite found accepted⟩

/-- The nodes without the text of spaces at their end. -/
def cutLayout (ns : List Node) : List Node := if ns.getLast?.any Node.isLayout then ns.dropLast else ns

/-- **The children without the spaces before one of them**, by cutting the list there: the part
    before it without its last node if that is layout, and the child at the index that it then
    has. -/
theorem withoutLayoutBefore_eq (front back : List Node) (n : Node) :
    withoutLayoutBefore (front ++ n :: back) front.length
      = (cutLayout front ++ n :: back, (cutLayout front).length) := by
  rcases List.eq_nil_or_concat front with rfl | ⟨rest, last, rfl⟩
  · rfl
  · rw [List.concat_eq_append]
    have here : (rest ++ [last] ++ n :: back)[(rest ++ [last]).length - 1]? = some last := by simp
    rw [withoutLayoutBefore, here, cutLayout, List.getLast?_concat, Option.any_some,
      List.dropLast_concat]
    cases last.isLayout with
    | false => simp
    | true => simp [List.eraseIdx_append_of_length_le]

/-- The children of an element in the text around them. -/
theorem written_editChildren {e : Element} {ns : List Node} (some_child : ns ≠ []) :
    (e.editChildren fun _ => ns).written = e.tag.opening ++ writtenAll ns ++ e.tag.closing := by
  rw [Element.editChildren, Element.written, Element.toNode, written_of_ne_nil some_child]
  rfl

/-- **The document with characters in the place of child `i`** of the parent, as it is written. -/
def put (d : Document) (parent : Address) (children : List Node) (i : Nat) (characters : Text) :
    Text :=
  match d.root.changeAt? parent (·.editChildren fun _ => children.set i (.text characters)) with
  | some root => { d with root }.written
  | none => d.written

/-- The characters stand in the text that stays. -/
theorem put_eq {d : Document} {p : List Nat} {parent : Element} {front back : List Node} {n : Node}
    {left right : Text} (found : d.root.below? p = some parent)
    (context : ∀ f e', d.root.changeBelow? f p = some e' →
      e'.written = left ++ (f parent).written ++ right) (characters : Text) :
    put d ⟨p⟩ (front ++ n :: back) front.length characters
      = (d.prolog ++ left ++ parent.tag.opening ++ writtenAll front) ++ characters
        ++ (writtenAll back ++ parent.tag.closing ++ right ++ d.epilog) := by
  have set : (front ++ n :: back).set front.length (.text characters)
      = front ++ .text characters :: back := by simp
  obtain ⟨root, changed⟩ := Element.exists_changeBelow? found
    (·.editChildren fun _ => front ++ .text characters :: back)
  rw [put, set, Element.changeAt?]
  simp only [changed, Document.written]
  rw [context _ _ changed, written_editChildren (by simp), writtenAll_append, writtenAll_cons,
    Node.written]
  simp only [List.append_assoc]

/-- **The marked document** is the marker in the text that stays: everything before the parent,
    its start tag, the children around the marker, its end tag and everything behind it. -/
theorem mark_eq {d : Document} {p : List Nat} {parent : Element} {front back : List Node}
    {n : Node} {left right marker : Text} (found : d.root.below? p = some parent)
    (context : ∀ f e', d.root.changeBelow? f p = some e' →
      e'.written = left ++ (f parent).written ++ right)
    (plain : PlainMarker marker) :
    mark d ⟨p⟩ (front ++ n :: back) front.length marker
      = (d.prolog ++ left ++ parent.tag.opening ++ writtenAll front) ++ marker
        ++ (writtenAll back ++ parent.tag.closing ++ right ++ d.epilog) := by
  have same : mark d ⟨p⟩ (front ++ n :: back) front.length marker
      = put d ⟨p⟩ (front ++ n :: back) front.length (escapeText marker) := rfl
  rw [same, escapeText_of_plain plain, put_eq found context]

/-! ## The graft -/

/-- A text that was found was made with one of the markers. -/
theorem exists_of_firstPlaced {place? : Text → Option Text} {markers : Nat → Text} {n left : Nat}
    {text : Text} {drawn : Nat} (h : firstPlaced place? markers n left = (some text, drawn)) :
    ∃ k < n + left, place? (markers k) = some text := by
  induction left generalizing n with
  | zero => cases h
  | succ left ih =>
    rw [firstPlaced] at h
    split at h
    · next found =>
      cases h
      exact ⟨n, by omega, found⟩
    · obtain ⟨k, hk, found⟩ := ih h
      exact ⟨k, by omega, found⟩

/-- Whether a marker is taken does not depend on what it is replaced by. -/
theorem of_placed? {source replacement marker text : Text} {marked : Text → Text}
    (h : placed? source marked replacement marker = some text) :
    (placed? source marked [] marker).isSome = true ∧
      text = Text.replaceFirst (marked marker) marker replacement := by
  unfold placed? at h ⊢
  split at h
  · cases h
  · next fresh =>
    split at h
    · next once =>
      cases h
      rw [if_neg fresh, if_pos once]
      exact ⟨rfl, rfl⟩
    · cases h

section

variable {d : Document} {target : Address} {markers : Nat → Text} {p : List Nat}
  {front back : List Node} {parent element : Element} {left right : Text}

/-- The marked document of a parent, with its children taken apart at the site. -/
theorem marked_eq (d : Document) (p : List Nat)
    (children : parent.children = front ++ element.toNode :: back) :
    marked d ⟨⟨p⟩, front.length⟩ parent
      = mark d ⟨p⟩ (cutLayout front ++ element.toNode :: back) (cutLayout front).length := by
  funext marker
  rw [marked]
  simp only [children, withoutLayoutBefore_eq]

/-- **The text in which a marker was replaced**: whichever one was taken, the replacement stands
    where the element stood.  So the marker is seen in no part of the result. -/
theorem eq_of_firstPlaced (site : site? d.root target = .ok ⟨⟨p⟩, front.length⟩)
    (found : d.root.below? p = some parent)
    (children : parent.children = front ++ element.toNode :: back)
    (told : Told d target markers)
    (context : ∀ f e', d.root.changeBelow? f p = some e' →
      e'.written = left ++ (f parent).written ++ right) {replacement text : Text} {drawn : Nat}
    (placed : firstPlaced (placed? d.source.text
      (mark d ⟨p⟩ (cutLayout front ++ element.toNode :: back) (cutLayout front).length) replacement)
      markers 0 maxAttempts = (some text, drawn)) :
    text = (d.prolog ++ left ++ parent.tag.opening ++ writtenAll (cutLayout front)) ++ replacement
      ++ (writtenAll back ++ parent.tag.closing ++ right ++ d.epilog) := by
  obtain ⟨k, hk, place⟩ := exists_of_firstPlaced placed
  obtain ⟨accepted, replaced⟩ := of_placed? place
  have same := marked_eq d p children
  -- the marker stands at one offset, which is the one it was put at
  obtain ⟨plain, stands⟩ := told k (by omega) ⟨⟨p⟩, front.length⟩ parent site found
    (by rw [same]; exact accepted)
  rw [same, mark_eq found context plain] at stands
  rw [replaced, mark_eq found context plain, Text.replaceFirst_of_standsOnce stands]

theorem at?_address (root : Element) (p : List Nat) (i : Nat) :
    root.at? (Site.address ⟨⟨p⟩, i⟩) = (root.below? p).bind (·.childAt? i) := by
  rw [Site.address, Address.child, Element.at?, Element.below?_append]
  congr 1
  funext e
  rw [Element.below?]
  cases e.childAt? i <;> rfl

/-- **The graft at a site below a parent that was read**: the document as it is written where the element
    did not change, and otherwise the first good marker replaced. -/
theorem atSite_eq {s : Settings} {unit : IndentUnit} {anchor : Position}
    (found : d.root.below? p = some parent)
    (children : parent.children = front ++ element.toNode :: back)
    (located : parent.position? = some anchor) :
    atSite d s unit markers ⟨⟨p⟩, front.length⟩
      = if element.isPristine = true then (.ok ⟨d.written, d.written != d.source.text, none, none⟩, 0)
        else
          match firstPlaced (placed? d.source.text
            (mark d ⟨p⟩ (cutLayout front ++ element.toNode :: back) (cutLayout front).length)
            ((Surroundings.of d s unit anchor).replacement element back.isEmpty))
            markers 0 maxAttempts with
          | (some text, drawn) =>
            (.ok ⟨text, text != d.source.text, some element.name, some anchor⟩, drawn)
          | (none, drawn) => (.error (.noMarker maxAttempts), drawn) := by
  have child : parent.childAt? front.length = some element :=
    Element.childAt?_eq_some_iff.2 ⟨front, back, children, rfl⟩
  have parent_at : d.root.at? ⟨p⟩ = some parent := found
  have last : ((cutLayout front).length + 1
      == (cutLayout front ++ element.toNode :: back).length) = back.isEmpty := by
    cases back <;> simp
  rw [atSite, at?_address, found, Option.bind_some, child]
  simp only [parent_at, Option.bind_some, located]
  congr 1
  rw [replace]
  simp only [parent_at, child, Layout.printedLines_eq]
  -- the replacement is made from lines, which are the same whether they come as entries or not
  rw [place]
  simp only [children, withoutLayoutBefore_eq, last]
  rfl

/-- **A graft that succeeds** has found a site, and either left its element as it is or replaced a
    marker there. -/
theorem exists_of_graft {s : Settings} {g : Grafted} (h : graft d target s markers = .ok g) :
    ∃ unit p front element back parent anchor, s.unit = .ok unit ∧
      site? d.root target = .ok ⟨⟨p⟩, front.length⟩ ∧ d.root.below? p = some parent ∧
      parent.children = front ++ Element.toNode element :: back ∧ parent.position? = some anchor ∧
      ((element.isPristine = true ∧ g = ⟨d.written, d.written != d.source.text, none, none⟩) ∨
        (element.isPristine = false ∧ ∃ text drawn, firstPlaced (placed? d.source.text
            (mark d ⟨p⟩ (cutLayout front ++ element.toNode :: back) (cutLayout front).length)
            ((Surroundings.of d s unit anchor).replacement element back.isEmpty))
            markers 0 maxAttempts = (some text, drawn) ∧
          g = ⟨text, text != d.source.text, some element.name, some anchor⟩)) := by
  rw [graft, graftCounted] at h
  split at h
  · cases h
  · next unit hunit =>
    split at h
    · cases h
    · next site found =>
      obtain ⟨⟨p⟩, i⟩ := site
      -- the checks at the site find its element, and a parent that was read
      cases here : d.root.at? (Site.address ⟨⟨p⟩, i⟩) with
      | none =>
        rw [atSite, here] at h
        cases h
      | some element =>
        rw [at?_address, Option.bind_eq_some_iff] at here
        obtain ⟨parent, there, child⟩ := here
        obtain ⟨front, back, children, rfl⟩ := Element.childAt?_eq_some_iff.1 child
        cases located : parent.position? with
        | none =>
          have parent_at : d.root.at? ⟨p⟩ = some parent := there
          rw [atSite, at?_address, there, Option.bind_some, child] at h
          simp only [parent_at, Option.bind_some, located] at h
          cases h
        | some anchor =>
          rw [atSite_eq there children located] at h
          refine ⟨unit, p, front, element, back, parent, anchor, hunit, found, there, children, located, ?_⟩
          split at h
          · next pristine => exact .inl ⟨pristine, (Except.ok.inj h).symm⟩
          · -- the element was changed, so there is a marker, or the graft fails for lack of one
            next changed =>
            refine .inr ⟨Bool.eq_false_iff.2 changed, ?_⟩
            split at h
            · next text drawn placed => exact ⟨text, drawn, placed, (Except.ok.inj h).symm⟩
            · cases h

/-- **What a graft does at its site**, taken apart there: it writes the document where the element
    is pristine, and otherwise replaces the first good marker by the lines of the element. -/
theorem graft_outcome {s : Settings} {g : Grafted} (h : graft d target s markers = .ok g)
    (site : site? d.root target = .ok ⟨⟨p⟩, front.length⟩) (found : d.root.below? p = some parent)
    (children : parent.children = front ++ element.toNode :: back) :
    (element.isPristine = true ∧ g = ⟨d.written, d.written != d.source.text, none, none⟩) ∨
    (element.isPristine = false ∧ ∃ unit anchor text drawn, s.unit = .ok unit ∧
      parent.position? = some anchor ∧ firstPlaced (placed? d.source.text
        (mark d ⟨p⟩ (cutLayout front ++ element.toNode :: back) (cutLayout front).length)
        ((Surroundings.of d s unit anchor).replacement element back.isEmpty))
        markers 0 maxAttempts = (some text, drawn) ∧
      g = ⟨text, text != d.source.text, some element.name, some anchor⟩) := by
  obtain ⟨unit, p', front', element', back', parent', anchor, hunit, site', found', children', located,
    outcome⟩ := exists_of_graft h
  -- the site of the graft is this one
  rw [site] at site'
  obtain ⟨same, index⟩ := Site.mk.inj (Except.ok.inj site')
  obtain rfl := Address.mk.inj same
  obtain rfl := Option.some.inj (found.symm.trans found')
  rw [children] at children'
  obtain ⟨rfl, rest⟩ := List.append_inj children' index
  obtain ⟨here, rfl⟩ := List.cons.inj rest
  obtain rfl := toNode_inj here
  rcases outcome with ⟨pristine, rfl⟩ | ⟨changed, text, drawn, placed, rfl⟩
  · exact .inl ⟨pristine, rfl⟩
  · exact .inr ⟨changed, unit, anchor, text, drawn, hunit, located, placed, rfl⟩

/-- **What a graft gives**: the document as it is written when the element at the site did not
    change, and otherwise the replacement in the text around the site. -/
theorem graft_cases {s : Settings} {g : Grafted} (h : graft d target s markers = .ok g)
    (site : site? d.root target = .ok ⟨⟨p⟩, front.length⟩) (found : d.root.below? p = some parent)
    (children : parent.children = front ++ element.toNode :: back)
    (unmistakable : Unmistakable d target markers)
    (context : ∀ f e', d.root.changeBelow? f p = some e' →
      e'.written = left ++ (f parent).written ++ right) :
    (element.isPristine = true ∧ g = ⟨d.written, d.written != d.source.text, none, none⟩) ∨
    (element.isPristine = false ∧ ∃ unit anchor, s.unit = .ok unit ∧ parent.position? = some anchor ∧
      g.element = some element.name ∧ g.anchor = some anchor ∧
      g.text = d.prolog ++ (left ++ (parent.tag.opening ++ (writtenAll (cutLayout front)
        ++ ((Surroundings.of d s unit anchor).replacement element back.isEmpty
        ++ (writtenAll back ++ parent.tag.closing)))) ++ right) ++ d.epilog) := by
  rcases graft_outcome h site found children with
    ⟨pristine, rfl⟩ | ⟨changed, unit, anchor, text, drawn, hunit, located, placed, rfl⟩
  · exact .inl ⟨pristine, rfl⟩
  · refine .inr ⟨changed, unit, anchor, hunit, located, rfl, rfl, ?_⟩
    show text = _
    rw [eq_of_firstPlaced site found children unmistakable.told context placed]
    simp only [List.append_assoc]

end

end Graft

end XmlGraft
