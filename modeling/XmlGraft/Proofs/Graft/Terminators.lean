/-
  Terminators — lines that all end in one way still do after an update.

  An update puts a new text between two parts of the old one.  The line ends in it are those of the
  two parts, the terminators that the layout puts in, and those of what is laid out.  Each of them
  is of the wanted kind.  What could go wrong is at the seams, where a line end might be torn or
  joined; so the cuts have to be next to characters that are no part of a line end.

  1. **Laid elements** (`Seamless.laid`): each break is a terminator, and what stands between the
     breaks has a property of line ends because the tree has it.  The lines of a comment hold no
     line feed, so those that are put between them are all there are.

  2. **Around the site** (`around_stepped`): so does what stays of the text.  The element that is
     replaced ends in `>`, and the end tag before which a new one comes begins with `<`.

  3. **Updates** (`update_cases`, `seamless_update`): the new text has every property of line ends
     that the text, the terminator and the values have.

  4. **The two kinds** (`uniform_update`): all line feeds behind returns, and no return at all.  The
     terminator is the dominant one of the text, which is the only one there is.

  The values of attributes are asked for apart from the text.  A value stands in the text escaped
  and may hold a return as a reference, which is resolved when it is read; a start tag that is
  generated writes the value, and the return in it comes out as a character.  This concerns the
  attributes of the laid subtree alone, since all others are copied.
-/
import XmlGraft.Proofs.Edit.LineEnds
import XmlGraft.Proofs.Edit.Provenance
import XmlGraft.Proofs.Graft.Updates

namespace XmlGraft

open Markup

variable {P : Text → Prop}

/-! ## Laid elements -/

namespace Graft

open Text

theorem unbroken_of_isBlank {t : Text} (blank : ∀ c ∈ t, isBlank c = true) : Unbroken t :=
  fun c hc => ⟨fun feed => absurd (feed ▸ blank c hc) (by decide),
    fun isReturn => absurd (isReturn ▸ blank c hc) (by decide)⟩

theorem infix_commentBody (raw : Text) : commentBody raw <:+: raw := by
  have inner : (dropStart? raw ['<', '!', '-', '-']).getD raw <:+: raw := by
    rw [dropStart?]
    split
    · exact (List.drop_suffix _ _).isInfix
    · exact List.infix_rfl
  refine List.IsInfix.trans ?_ inner
  rw [commentBody, dropEnd?]
  split
  · exact (List.take_prefix _ _).isInfix
  · exact List.infix_rfl

end Graft

namespace Text.Seamless

open Graft

/-- Nodes one behind the other are written with their own line ends: no seam is inside one, since
    each part has the property for itself. -/
theorem writtenAll (h : Seamless P) {ns : List Node} (each : ∀ n ∈ ns, P n.written) :
    P (writtenAll ns) := by
  induction ns with
  | nil => exact h.nil
  | cons n ns ih =>
    rw [List.forall_mem_cons] at each
    exact h.append each.1 (ih each.2)

/-- A start tag that is generated has the line ends of its attribute values. -/
theorem generatedStart (h : Seamless P) {tag : Tag} (plain : tag.Unbroken)
    (values : ∀ a ∈ tag.attributes, P a.value) : P tag.generatedStart := by
  have bracket : Unbroken ['<'] := by decide
  rw [Tag.generatedStart]
  refine h.append (h.plain (bracket.append plain.name)) (h.flatMap fun a ha => ?_)
  have key : Unbroken ([' '] ++ (a.name ++ ['=', '"'])) :=
    .append (by decide) (.append (plain.keys a ha) (by decide))
  have whole := h.append (h.plain key)
    (h.append (h.escapeValue (values a ha)) (h.plain (by decide : Unbroken ['"'])))
  rw [Attribute.written]
  simpa using whole

variable {m : Margin}

/-- **A break** has the line ends of the terminator, for the indentation behind it has none. -/
theorem breakAt (h : Seamless P) (proper : m.Proper) (ending : P m.terminator) (depth : Nat) :
    P (m.breakAt depth) :=
  h.append ending (h.plain (unbroken_of_isBlank (proper.isBlank_indent depth)))

/-- **A comment that is moved** gets terminators between its lines.  A line of it holds no line
    feed, and a return at its end goes with the old line end. -/
theorem movedBody (h : Seamless P) (proper : m.Proper) (ending : P m.terminator) (depth : Nat)
    {body raw : Text} (whole : P raw) (within : body <:+: raw) : P (m.movedBody depth body) := by
  obtain ⟨first, more, start, pieces, split, inside, -, moved_eq, moved⟩ :=
    exists_movedBody proper depth body
  have lines : ∀ line ∈ splitOn '\n' body, '\n' ∉ line ∧ line <:+: body := of_mem_splitOn.2.2
  rw [split, List.forall_mem_cons] at lines
  have own {part line : Text} (hl : '\n' ∉ line ∧ line <:+: body) (inside : part <:+: line) : P part :=
    h.line whole ((inside.trans hl.2).trans within) fun feed => hl.1 (inside.subset feed)
  rw [moved_eq]
  refine h.append (own lines.1 inside) (h.flatMap fun p hp => h.append ending ?_)
  obtain ⟨line, hl, here⟩ := exists_of_mem_right moved hp
  exact h.append (h.plain (unbroken_of_isBlank here.blank)) (own (lines.2 line hl) here.inside)

/-- **A laid node** has the line ends of the node, of the terminator and of the attribute values.
    These are asked for on their own because a start tag is generated from the values. -/
theorem laid (h : Seamless P) (proper : m.Proper) (ending : P m.terminator) {n : Node}
    (ends : n.Every (Node.Ends P)) (values : ∀ x ∈ n.within, ∀ a ∈ x.attributes, P a.value) :
    ∀ depth, P (m.laid depth n).written := by
  induction n using Node.induct with
  | element tag children ih =>
    intro depth
    obtain ⟨plain, below⟩ := every_element.1 ends
    rw [Node.within, List.forall_mem_cons] at values
    have start := h.generatedStart plain values.1
    rw [show Node.element tag children = (⟨tag, children⟩ : Element).toNode from rfl, laid_toNode,
      ← Element.written]
    cases layout : children.all Node.isLayout with
    | true =>
      rw [written_laidElement_single layout]
      exact h.append start (h.plain (by decide))
    | false =>
      rw [written_laidElement_pair layout]
      refine h.append (h.append (h.append start (h.plain (by decide))) (h.writtenAll ?_)) ?_
      · -- what is inside are breaks and laid nodes
        refine forall_mem_laidAll (fun depth => h.breakAt proper ending depth) (fun n hn _ => ?_) true
        exact ih n hn (below n hn) (fun x hx => values.2 x (mem_allWithin.2 ⟨n, hn, hx⟩)) _
      · exact h.append (h.append (h.plain (by decide)) (h.plain plain.name)) (h.plain (by decide))
  | text raw => exact fun depth => h.trim ends.own
  | comment raw =>
    intro depth
    rw [Margin.laid, Node.written, flow_commentPiece, Token.written]
    have body := h.movedBody proper ending depth ends.own (infix_commentBody raw)
    exact h.append (h.append (h.plain (by decide)) body) (h.plain (by decide))
  | other markup => exact fun depth => ends.own

/-- **A replacement** has the line ends of the element, of the terminator and of the attribute
    values: it is a laid element between breaks. -/
theorem replacement (h : Seamless P) {s : Surroundings} (proper : s.Proper) (ending : P s.terminator)
    {e : Element} (ends : e.Ends P) (values : ∀ x ∈ e.within, ∀ a ∈ x.attributes, P a.value)
    (isLast : Bool) : P (s.replacement e isLast) := by
  have laid := h.laid proper.margin ending ends values 0
  rw [laid_toNode] at laid
  rw [replacement_eq]
  refine h.append (h.append (h.breakAt proper.margin ending 0) laid) ?_
  split
  · exact h.append ending (h.plain (unbroken_of_isBlank proper.base))
  · exact h.nil

end Text.Seamless

/-! ## Around the site -/

namespace Graft

open Text

/-- What was read ends in `>`. -/
theorem last_written {text : Text} {o : Nat} {e : Element} {ns : List Node}
    (read : ReadAt o (e.toNode :: ns)) (recorded : e.toNode.RecordedIn text) :
    e.written.getLast? = some '>' := by
  obtain ⟨origin, here, own⟩ := recorded
  have last {t : Text} (ends : ['>'] <:+ t) : t.getLast? = some '>' := by
    obtain ⟨front, rfl⟩ := ends
    exact List.getLast?_concat
  rcases read.tags with ⟨position, opening, origin', -, written, -⟩ |
    ⟨position, opening, closing, origin', written, -⟩
  · obtain rfl := Option.some.inj (here.symm.trans origin')
    rw [written]
    exact last own.ends
  · obtain rfl := Option.some.inj (here.symm.trans origin')
    have tag : e.tag.closing = closing.text := by rw [Tag.closing, origin']; rfl
    rw [written, tag, List.getLast?_append, last (own.closing closing rfl).2.2]
    rfl

/-- A tag that is opened keeps the front of what it was. -/
theorem prefix_withoutSlash (opening : Text) : Tag.withoutSlash opening <+: opening := by
  have front : (dropEnd? opening ['/', '>']).getD opening <+: opening := by
    rcases getD_dropEnd? opening ['/', '>'] with cut | same
    · exact ⟨_, cut⟩
    · exact ⟨[], by rw [List.append_nil, same]⟩
  obtain ⟨spaces, -, whole⟩ := eq_trimEnd ((dropEnd? opening ['/', '>']).getD opening)
  exact List.IsPrefix.trans ⟨spaces, whole.symm⟩ front

section

variable {text left right : Text} {o : Nat} {parent : Element} {front back : List Node}

/-- **What stays around a child** that was read, when the spaces before it go too.  The cuts are
    before a tag and behind one, so no line end is torn by them. -/
theorem around_old (h : Seamless P) (whole : P (left ++ parent.written ++ right))
    (read : ReadAt o [parent.toNode]) {child : Element} (recorded : child.toNode.RecordedIn text)
    (children : parent.children = front ++ child.toNode :: back) :
    P (left ++ parent.tag.opening ++ writtenAll (cutLayout front)) ∧
      P (writtenAll back ++ parent.tag.closing ++ right) := by
  -- a parent with a child has two tags
  rcases read.tags with ⟨_, _, _, single, -⟩ | ⟨position, opening, closing, origin, written, -⟩
  · rw [children] at single
    exact absurd single (by simp)
  rcases read.element.2.2.2 with ⟨single, -⟩ | ⟨-, inner⟩
  · rw [children] at single
    exact absurd single (by simp)
  rw [children, readAt_append] at inner
  have last : child.written.getLast? = some '>' := last_written inner.2 recorded
  have split : left ++ parent.written ++ right
      = (left ++ parent.tag.opening ++ writtenAll (cutLayout front))
        ++ (spacesBefore (front ++ child.toNode :: back) front.length ++ child.written
          ++ (writtenAll back ++ parent.tag.closing ++ right)) := by
    rw [written, children, writtenAll_append, writtenAll_cons, spacesBefore_append front]
    simp only [List.append_assoc]
    rfl
  rw [split] at whole
  refine ⟨h.front whole, ?_⟩
  rw [← List.append_assoc] at whole
  -- behind the child comes what stays, and the child ends in a bracket
  refine h.back whole (untorn_of_last (c := '>') ?_ (by decide))
  rw [← List.append_assoc, List.getLast?_append, last]
  rfl

/-- **What stays around a new last child**, when the spaces before it go too.  A parent in one tag
    is opened, which takes the slash from its end. -/
theorem around_new (h : Seamless P) (whole : P (left ++ parent.written ++ right))
    (read : ReadAt o [parent.toNode]) (recorded : parent.toNode.RecordedIn text)
    (named : parent.tag.Unbroken) :
    P (left ++ parent.tag.opening ++ writtenAll (cutLayout parent.children)) ∧
      P (parent.tag.closing ++ right) := by
  obtain ⟨own, here, tags⟩ := recorded
  rcases read.tags with ⟨position, opening, origin, empty, written, tag, tag'⟩ |
    ⟨position, opening, closing, origin, written, -⟩
  -- the one tag is opened, and the end tag is new
  · obtain ⟨rest, front⟩ := prefix_withoutSlash opening.text
    rw [written, ← front] at whole
    have before : P (left ++ Tag.withoutSlash opening.text) := by
      rw [← List.append_assoc, List.append_assoc] at whole
      exact h.front whole
    rw [front] at whole
    refine ⟨?_, ?_⟩
    · rw [empty, tag]
      have bracket := h.append before (h.plain (by decide : Unbroken ['>']))
      simpa [cutLayout] using bracket
    · rw [tag']
      have last : (left ++ opening.text).getLast? = some '>' := by
        have own := last_written read ⟨own, here, tags⟩
        rw [written] at own
        rw [List.getLast?_append, own]
        rfl
      have rest := h.back whole (untorn_of_last last (by decide))
      exact h.append (h.append (h.append (h.plain (by decide)) (h.plain named.name))
        (h.plain (by decide))) rest
  · obtain rfl := Option.some.inj (here.symm.trans origin)
    obtain ⟨-, begins, -⟩ := tags.closing closing rfl
    have tag : parent.tag.closing = closing.text := by rw [Tag.closing, origin]; rfl
    have split : left ++ parent.written ++ right
        = (left ++ parent.tag.opening ++ writtenAll (cutLayout parent.children))
          ++ (spacesBefore (parent.children ++ []) parent.children.length
            ++ (parent.tag.closing ++ right)) := by
      rw [written, spacesBefore_append parent.children []]
      simp only [List.append_assoc]
    rw [split] at whole
    refine ⟨h.front whole, ?_⟩
    rw [← List.append_assoc] at whole
    -- the end tag begins with a bracket
    refine h.back whole (untorn_of_head ?_)
    obtain ⟨rest, begins⟩ := begins
    rw [tag, ← begins]
    simp

/-- **What stays around the site** of a step, whether the step found its child or made it. -/
theorem around_stepped (h : Seamless P) (whole : P (left ++ parent.written ++ right))
    (read : ReadAt o [parent.toNode]) (recorded : parent.toNode.Every (Node.RecordedIn text))
    (named : parent.tag.Unbroken) {f : Element → Element} {s : Step} {rest : Route} {t a' : Element}
    (stepped : Route.Stepped f s parent rest front t back a') :
    P (left ++ a'.tag.opening ++ writtenAll (cutLayout front)) ∧
      P (writtenAll back ++ a'.tag.closing ++ right) := by
  obtain ⟨own, below⟩ := every_element.1 recorded
  cases stepped with
  | found children _ _ =>
    rw [children, List.forall_mem_append, List.forall_mem_cons] at below
    have kept := around_old h whole read below.2.1.own children
    exact kept
  | created _ => exact around_new h whole read own named

end

end Graft

/-! ## Updates -/

/-- **A pristine child after a step** is one that was there, and the parent is as it was: what a
    step creates or a change alters is not pristine. -/
theorem Route.Stepped.eq_of_isPristine {f : Element → Element} (change : ∀ x, Retains x (f x))
    {s : Step} {rest : Route} {a a' t : Element} {front back : List Node}
    (h : Stepped f s a rest front t back a') (pristine : t.isPristine = true) : a' = a := by
  cases h with
  | found children _ _ =>
    rcases (change _).flagged with same | flag
    · rw [same, ← children]
    · rw [flag] at pristine
      cases pristine
  | created _ =>
    have built := (Route.retains_changeEnd change rest s.create).built s.built_create
    rw [not_isPristine_of_built built] at pristine
    cases pristine

/-- What a named step creates has no line ends. -/
theorem Markup.ends_create_of_named {route : Route} (steps : route.AllNamed) :
    ∀ s ∈ route, s.create.Ends P := by
  intro s hs
  obtain ⟨name, plain, rfl⟩ := steps s hs
  exact ends_named (plainName_of_isElementName plain).unbroken

/-- **Fields that are written** bring the line ends of their values; their names, which are names
    of elements, have none. -/
theorem Markup.ends_applied (h : Text.Seamless P) {fields : Fields}
    (names : ∀ field ∈ fields.entries, isElementName field.1 = true)
    (values : ∀ v ∈ fields.written, P v.2) {e : Element} (ends : e.Ends P) :
    (fields.applied e).Ends P := by
  refine ends.writeAll h fun v hv => ⟨?_, values v hv⟩
  obtain ⟨field, mem, same⟩ := mem_of_mem_written hv
  rw [← same]
  exact (plainName_of_isElementName (names field mem)).unbroken

/-- **The element that a graft lays out**: the one at the site, if something in it changed. -/
def Graft.laidOut? (root : Element) (target : Address) : Option Element :=
  match site? root target with
  | .ok site => (root.at? site.address).filter (!·.isPristine)
  | .error _ => none

open Graft Route Text

section

variable {text path : Text} {d : Document} {route : Route} {fields : Fields} {settings : Settings}
  {markers : Nat → Text} {u : Updated} {root edited : Element} {arrival : Arrival} {count : Nat}
  (one : AtMostOneMark text) (parsed : Document.parse text = .ok d)
  (given : Route.ofText? path = .ok route)
  (fieldNames : ∀ field ∈ fields.entries, isElementName field.1 = true)
  (walked : findOrCreate d.root .root route = .ok (root, arrival))
  (written : writeFields root arrival.address fields = .ok (edited, count))
  (unmistakable : Unmistakable { d with root := edited } arrival.address markers)
  (done : update text route fields settings markers = .ok u)

include given walked written in
/-- The walk and the fields make up one change at the end of the route. -/
theorem edited_eq : arrival.address = ⟨(follow 0 d.root route).2.indices⟩ ∧
    edited = changeEnd fields.applied route d.root := by
  rw [findOrCreate_root d.root (of_ofText? given).1] at walked
  cases walked
  obtain ⟨count', again⟩ := writeFields_follow d.root route fields
  rw [again] at written
  cases written
  exact ⟨rfl, rfl⟩

include one parsed given walked written unmistakable done in
/-- **What an update does to the text**: nothing, or it puts the laid element between what stays around
    the site, which is below a parent that was read. -/
theorem update_cases :
    ∃ (s : Step) (rest : Route) (p : List Nat) (a : Element) (front : List Node) (t : Element)
      (back : List Node) (a' : Element) (left right : Text),
      d.root.below? p = some a ∧ edited.below? p = some a' ∧
      Stepped fields.applied s a rest front t back a' ∧ text = left ++ a.written ++ right ∧
      (u.text = text ∨ laidOut? edited arrival.address = some t ∧ ∃ unit anchor,
        u.text = (left ++ a'.tag.opening ++ writtenAll (cutLayout front))
          ++ (Surroundings.of { d with root := edited } settings unit anchor).replacement t back.isEmpty
          ++ (writtenAll back ++ a'.tag.closing ++ right)) := by
  have read := Document.read_of_parse one parsed
  obtain ⟨some_step, steps⟩ := of_ofText? given
  obtain ⟨address, rfl⟩ := edited_eq given walked written
  obtain ⟨g, grafted, rfl⟩ := graft_of_update parsed some_step done
  rw [address] at unmistakable ⊢
  cases route with
  | nil => exact absurd rfl some_step
  | cons s route =>
    obtain ⟨r, s', rest, p, a, front, t, back, a', -, leads, stepped, changed, site⟩ :=
      exists_site read fields.applied (fresh_of_named steps)
    have there := Element.below?_of_changeBelow? leads.below? changed
    obtain ⟨left, right, root_written, -, context⟩ := Element.below?_context leads.below?
    have text_eq : text = d.prolog ++ left ++ a.written ++ (right ++ d.epilog) := by
      rw [← read.written, Document.written, root_written]
      simp only [List.append_assoc]
    refine ⟨s', rest, p, a, front, t, back, a', d.prolog ++ left, right ++ d.epilog, leads.below?, there,
      stepped, text_eq, ?_⟩
    have context' : ∀ f e', (changeEnd fields.applied (s :: route) d.root).changeBelow? f p = some e' →
        e'.written = left ++ (f a').written ++ right := fun f e' again => by
      rw [Element.changeBelow?_changeBelow? changed] at again
      exact context _ _ again
    rcases graft_cases grafted site there stepped.children unmistakable context' with
      ⟨pristine, rfl⟩ | ⟨dirty, unit, anchor, -, -, -, -, result⟩
    · -- nothing changed, so the tree is written as the one that was read
      left
      have same := stepped.eq_of_isPristine (fun x => Fields.retains_writeAll x _) pristine
      have edited_written := context _ _ changed
      rw [same, ← root_written] at edited_written
      rw [← read.written]
      simp only [Document.written, edited_written]
    · right
      have child := Element.childAt?_eq_some_iff.2 ⟨front, back, stepped.children, rfl⟩
      refine ⟨?_, unit, anchor, ?_⟩
      · rw [laidOut?, site]
        simp only [at?_address, there, Option.bind_some, child]
        simp [dirty]
      · rw [result]
        simp only [List.append_assoc]

include one parsed given fieldNames walked written unmistakable done in
/-- **An update keeps a property of line ends** that the text, the terminator, the fields and the
    attribute values of the laid element have. -/
theorem seamless_update (h : Seamless P) (whole : P text)
    (ending : P (settings.lineEnding.terminator text)) (values : ∀ v ∈ fields.written, P v.2)
    (attributes : ∀ e ∈ laidOut? edited arrival.address, ∀ x ∈ e.within, ∀ a ∈ x.attributes, P a.value) :
    P u.text := by
  have read := Document.read_of_parse one parsed
  have ends_root := Document.ends_of_parse h one parsed whole
  have ends : edited.Ends P := by
    rw [(edited_eq given walked written).2]
    exact ends_root.changeEnd (ends_create_of_named (of_ofText? given).2)
      fun x own => ends_applied h fieldNames values own
  obtain ⟨s, rest, p, a, front, t, back, a', left, right, found, there, stepped, text_eq, same |
    ⟨laid, unit, anchor, result⟩⟩ := update_cases one parsed given walked written unmistakable done
  · rw [same]
    exact whole
  · have below := (Element.ends_iff.1 (Element.every_below? ends there)).2
    rw [stepped.children, List.forall_mem_append, List.forall_mem_cons] at below
    -- the terminator of the graft is that of the text
    have terminator : (Surroundings.of { d with root := edited } settings unit anchor).terminator
        = settings.lineEnding.terminator text := by
      rw [← read.source]
      rfl
    obtain ⟨o, place⟩ := read.below? found
    rw [text_eq] at whole
    obtain ⟨before, behind⟩ := around_stepped h whole place
      (Element.every_below? (Document.recordedIn_of_parse one parsed) found)
      (Element.ends_iff.1 (Element.every_below? ends_root found)).1 stepped
    rw [result]
    refine h.append (h.append before (h.replacement (proper_of _ settings unit anchor) ?_ below.2.1
      (attributes t laid) back.isEmpty)) behind
    rw [terminator]
    exact ending

include one parsed given fieldNames walked written unmistakable done in
/-- **Line endings stay uniform**, where the line ending is the dominant one of the text.  When every
    line feed of the text, of the fields and of the attribute values of the laid element stands directly
    behind a carriage return, then so does every line feed of the new text; and when none of them holds
    a carriage return, the new text holds none. -/
theorem uniform_update (auto : settings.lineEnding = .auto) :
    ('\n' ∈ text → Returned text → (∀ v ∈ fields.written, Returned v.2) →
      (∀ e ∈ laidOut? edited arrival.address, ∀ x ∈ e.within, ∀ a ∈ x.attributes, Returned a.value) →
      Returned u.text) ∧
    ('\r' ∉ text → (∀ v ∈ fields.written, '\r' ∉ v.2) →
      (∀ e ∈ laidOut? edited arrival.address, ∀ x ∈ e.within, ∀ a ∈ x.attributes, '\r' ∉ a.value) →
      '\r' ∉ u.text) := by
  have terminator : settings.lineEnding.terminator text = dominantEnding text := by rw [auto]; rfl
  constructor
  · intro feed whole values attributes
    refine seamless_update one parsed given fieldNames walked written unmistakable done
      seamless_returned whole ?_ values attributes
    rw [terminator, dominantEnding_of_returned whole feed]
    decide
  · intro whole values attributes
    refine seamless_update one parsed given fieldNames walked written unmistakable done
      seamless_noReturn whole ?_ values attributes
    rw [terminator, dominantEnding_of_noReturn whole]
    decide

end

/-! ### Line ends of four kinds -/

namespace Returns

/-- Line ends between tags, in an attribute value and in a comment. -/
def text : Text := "<a>\r\n <b k='x\r\ny'><!--u\r\n  v--></b>\r\n</a>".toList

/-- A field of two lines. -/
def fields : Fields := .ofPairs [(['d'], .text "1\r\n2".toList)]

/-- The child. -/
def child : Element :=
  ⟨⟨['b'], [⟨['k'], "x\r\ny".toList⟩], some ⟨some ⟨2, 2⟩, ⟨⟨6, 18⟩, "<b k='x\r\ny'>".toList⟩,
    some ⟨⟨31, 35⟩, "</b>".toList⟩⟩, false, false⟩, [.comment "<!--u\r\n  v-->".toList]⟩

/-- The root element. -/
def root : Element :=
  ⟨⟨['a'], [], some ⟨some ⟨1, 1⟩, ⟨⟨0, 3⟩, "<a>".toList⟩, some ⟨⟨37, 41⟩, "</a>".toList⟩⟩, false, false⟩,
    [.text "\r\n ".toList, child.toNode, .text "\r\n".toList]⟩

/-- What the text is read as. -/
def document : Document := ⟨Source.ofText text, [], root, []⟩

/-- The child with the field in it. -/
def filled : Element := child.append (Element.ofValue ['d'] "1\r\n2".toList).toNode

/-- The new text: the comment is moved, the attribute value and the field stay as they are. -/
def updated : Updated :=
  ⟨("<a>\r\n    <b k=\"x\r\ny\">\r\n        <!--u\r\n        v-->\r\n        <d>1\r\n2</d>\r\n"
    ++ "    </b>\r\n</a>").toList, ⟨true, [], some ['b'], some ⟨1, 1⟩⟩⟩

theorem parse_text : Document.parse text = .ok document := by with_unfolding_all rfl

theorem findOrCreate_child :
    findOrCreate document.root .root [.named ['b']] = .ok (root, ⟨⟨[1]⟩, none, []⟩) := by rfl

theorem writeFields_child : writeFields root ⟨[1]⟩ fields = .ok (root.putChild 1 filled, 1) := by rfl

theorem update_text :
    update text [.named ['b']] fields .standard Sample.markers = .ok updated := by decide +kernel

theorem unmistakable_filled :
    Unmistakable { document with root := root.putChild 1 filled } ⟨[1]⟩ Sample.markers := by
  intro n _
  refine ⟨by unfold Sample.markers; decide, fun site parent found there _ => ?_⟩
  obtain rfl : (⟨⟨[]⟩, 1⟩ : Site) = site := Except.ok.inj (Eq.trans (by rfl) found)
  obtain rfl : root.putChild 1 filled = parent := Option.some.inj (Eq.trans (by rfl) there)
  unfold Text.StandsOnce
  rfl

end Returns

open Returns in
/-- Between tags, in the value, in the comment and in the field, lines end in CRLF before and after. -/
theorem uniform_update_returns :
    AtMostOneMark Returns.text ∧ Document.parse Returns.text = .ok document ∧
    Route.ofText? ['b'] = .ok [.named ['b']] ∧
    (∀ field ∈ fields.entries, isElementName field.1 = true) ∧
    laidOut? (Returns.root.putChild 1 filled) ⟨[1]⟩ = some filled ∧
    update Returns.text [.named ['b']] fields .standard Sample.markers = .ok updated ∧
    Returned updated.text := by
  have one : AtMostOneMark Returns.text := by decide
  have given : Route.ofText? ['b'] = .ok [.named ['b']] := by rfl
  have names : ∀ field ∈ fields.entries, isElementName field.1 = true := by
    intro field mem
    obtain rfl := List.mem_singleton.1 mem
    rfl
  have laid : laidOut? (Returns.root.putChild 1 filled) ⟨[1]⟩ = some filled := by rfl
  have values : ∀ v ∈ fields.written, Returned v.2 := by decide
  have attributes : ∀ e ∈ laidOut? (Returns.root.putChild 1 filled) ⟨[1]⟩, ∀ x ∈ e.within,
      ∀ a ∈ x.attributes, Returned a.value := by
    rw [laid]
    intro e he
    cases he
    decide
  obtain ⟨returned, -⟩ := uniform_update one parse_text given names findOrCreate_child writeFields_child
    unmistakable_filled update_text rfl
  exact ⟨one, parse_text, given, names, laid, update_text,
    returned (by decide) (by decide) values attributes⟩

end XmlGraft
