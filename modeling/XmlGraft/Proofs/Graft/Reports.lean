/-
  Reports — what an update tells of what it did.

  Whether an element is laid out anew hangs on flags: those that the writing of fields raises, and
  the missing origin of what a walk created.  Both are exact.  A report tells of no element exactly
  when there was nothing to do, and otherwise of the outermost element that is not as it was read.

  1. **Read texts** (`Document.some_text_of_parse`): no text node of a document is empty, so that an
     element holds a value exactly when its content is what the value is written as
     (`holds_iff_shows`).  In a tree that was built this fails for the empty value, which an empty
     text node would hold as well.

  2. **Everything in place** (`InPlace`): what it means that there is nothing to do, told of the
     tree as it was read.

  3. **What is grafted** (`exists_reported_of_leads`, `exists_reported_of_grown`): the target of a
     route that leads to an element, or what was created on the way.  In the second case the graft
     goes up from the target, and passes only elements that were created.

  4. **Reports** (`update_report`): everything in place, or the element that was laid out.

  The report is compared with the walk and not with the graft.  The walk tells which element is the
  outermost one that it created, and where that hangs; the graft finds the same element from below,
  by going up.  That both name one element is the content of the result, since they look at
  different things: one at the route, the other at what elements remember of their source.
-/
import XmlGraft.Proofs.Edit.Filled
import XmlGraft.Proofs.Edit.Walks
import XmlGraft.Proofs.Graft.Refusals
import XmlGraft.Proofs.Graft.Twice

namespace XmlGraft

open Markup Graft Route

/-! ## Read texts -/

namespace Markup

theorem resolveOrSame_eq_nil {raw : Text} (h : resolveOrSame raw = []) : raw = [] := by
  rw [resolveOrSame] at h
  split at h
  · next value resolved =>
    rw [h] at resolved
    cases resolve_eq_ok_iff.1 resolved
    rfl
  · exact h

/-- Texts that events make up are not empty. -/
theorem some_text_of_content {text : Text} {es : List Event} {ns : List Node} (h : Content es ns) :
    (∀ e ∈ es, e.RecordedIn text ∧ e.token.WellFormed) →
      ∀ n ∈ ns, n.Every fun n => n ≠ .text [] := by
  induction h with
  | nil => exact fun _ => List.forall_mem_nil _
  | @text e es ns raw value token _ _ ih =>
    intro each
    rw [List.forall_mem_cons] at each
    obtain ⟨⟨own, formed⟩, rest⟩ := each
    refine List.forall_mem_cons.2 ⟨.leaf rfl fun nothing => ?_, ih rest⟩
    rw [token] at formed
    -- a token of character data has at least one character
    have spelled : e.excerpt.text = raw := by rw [own.spelled, token, Token.written]
    exact formed.ne_nil (spelled.symm.trans (Node.text.inj nothing))
  | comment _ _ ih | other _ _ ih =>
    intro each
    rw [List.forall_mem_cons] at each
    refine List.forall_mem_cons.2 ⟨.leaf rfl ?_, ih each.2⟩
    intro same
    cases same
  | single _ _ _ ih =>
    intro each
    rw [List.forall_mem_cons] at each
    refine List.forall_mem_cons.2 ⟨.element ?_ (List.forall_mem_nil _), ih each.2⟩
    intro same
    cases same
  | pair _ _ _ _ _ _ ihi ih =>
    intro each
    rw [List.forall_mem_cons, List.forall_mem_append, List.forall_mem_cons] at each
    obtain ⟨-, inner, -, rest⟩ := each
    refine List.forall_mem_cons.2 ⟨.element ?_ (ihi inner), ih rest⟩
    intro same
    cases same

/-- **No text node of a document is empty**, since a text node is made of the characters between
    two pieces of markup, and only if there are some. -/
theorem Document.some_text_of_parse {text : Text} {d : Document} (one : AtMostOneMark text)
    (parsed : parse text = .ok d) : d.root.toNode.Every fun n => n ≠ .text [] := by
  obtain ⟨es, content, each⟩ := Document.exists_recorded_content one parsed
  exact some_text_of_content content each _ (List.mem_singleton_self _)

/-- **Content as a value is written**: nothing for no text, else one text that stands for it. -/
def Element.Shows (c : Element) (value : Text) : Prop :=
  value = [] ∧ c.children = [] ∨
    value ≠ [] ∧ ∃ raw, c.children = [.text raw] ∧ resolveOrSame raw = value

/-- **Without empty texts, to hold a value is to show it.**  An empty text node holds the empty
    value, which is shown by no node at all; a document has no such nodes. -/
theorem Element.holds_iff_shows {c : Element} {value : Text}
    (some_text : ∀ n ∈ c.children, n ≠ .text []) : c.holds value = true ↔ c.Shows value := by
  rw [Element.holds_iff, Element.Shows]
  refine or_congr Iff.rfl ⟨?_, fun h => h.2⟩
  rintro ⟨raw, children, stands⟩
  refine ⟨?_, raw, children, stands⟩
  rintro rfl
  rw [resolveOrSame_eq_nil stands] at children
  exact some_text (.text []) (by rw [children]; exact List.mem_singleton_self _) rfl

end Markup

/-! ## Everything in place -/

/-- **Everything is in place** for an update: each step of the route finds a child, and below the last
    one the first child of each name has the content that its value is written as. -/
def InPlace (root : Element) (route : Route) (fields : Fields) : Prop :=
  ∃ p t, Leads route root p t ∧
    ∀ v ∈ fields.written, ∃ c, t.child? v.1 = some c ∧ c.Shows v.2

/-- In a document, content that shows a value is content that holds it. -/
theorem inPlace_iff {text : Text} {d : Document} (one : AtMostOneMark text)
    (parsed : Document.parse text = .ok d) {route : Route} {fields : Fields} :
    InPlace d.root route fields ↔ ∃ p t, Leads route d.root p t ∧ fields.Held t := by
  have texts := Document.some_text_of_parse one parsed
  refine exists₂_congr fun p t => and_congr_right fun leads => forall₂_congr fun v _ => ?_
  refine exists_congr fun c => and_congr_right fun found => ?_
  refine (Element.holds_iff_shows fun n mem => ?_).symm
  -- the child is an element of the document
  rw [Element.child?_eq_find?] at found
  have child : c.toNode ∈ t.children := by
    obtain ⟨n, here, element⟩ := List.mem_filterMap.1 (List.mem_of_find?_eq_some found)
    rw [← element?_eq_some_iff.1 element]
    exact here
  have below := (every_element.1 (Element.every_below? texts leads.below?)).2 c.toNode child
  exact ((every_element.1 below).2 n mem).own

/-! ## What is grafted -/

/-- **What an update reports of a change**: the element that was laid out, and where the element that it
    stands in was read. -/
structure Reported (d : Document) (route : Route) (report : Report) (root : Element)
    (arrival : Arrival) (x parent : Element) (above : Address) (anchor : Position) : Prop where
  walked : findOrCreate d.root .root route = .ok (root, arrival)
  created : report.created = arrival.created
  /-- The element is the outermost one that was created, or the target when none was. -/
  element : root.at? (arrival.firstCreated.getD arrival.address) = some x
  outermost : ∀ name ∈ arrival.created.head?, x.name = name
  grafted : report.grafted = some x.name
  inside : (arrival.firstCreated.getD arrival.address).parent? = some above
  stands : d.root.at? above = some parent
  position : parent.position? = some anchor
  anchor : report.anchor = some anchor

section

variable {text : Text} {d : Document} {route : Route} {fields : Fields} {settings : Settings}
  {markers : Nat → Text} {u : Updated}

/-- An update is the graft of the fields written where the walk arrives. -/
theorem exists_graft_of_update (parsed : Document.parse text = .ok d) (some_step : route ≠ [])
    (done : update text route fields settings markers = .ok u) {root : Element} {arrival : Arrival}
    (walked : findOrCreate d.root .root route = .ok (root, arrival)) :
    ∃ edited g, root.changeAt? arrival.address fields.applied = some edited ∧
      graft { d with root := edited } arrival.address settings markers = .ok g ∧
      u = ⟨g.text, ⟨g.changed, arrival.created, g.element, g.anchor⟩⟩ := by
  obtain ⟨g, grafted, rfl⟩ := graft_of_update parsed some_step done
  rw [findOrCreate_root d.root some_step] at walked
  cases walked
  exact ⟨_, g, changeBelow?_follow fields.applied 0 d.root route, grafted, rfl⟩

theorem parent?_child (q : List Nat) (i : Nat) : (Address.mk (q ++ [i])).parent? = some ⟨q⟩ := by
  rw [Address.parent?, List.dropLast_concat]
  simp

/-- **Fields that change the target** of a route that leads to it: the target is laid out, and the
    report tells its name and the position of its parent. -/
theorem exists_reported_of_leads (one : AtMostOneMark text) (parsed : Document.parse text = .ok d)
    (some_step : route ≠ []) (done : update text route fields settings markers = .ok u) {p : List Nat}
    {t : Element} (leads : Leads route d.root p t) (dirty : fields.applied t ≠ t) :
    ∃ parent above anchor, Reported d route u.report d.root ⟨⟨p⟩, none, []⟩ t parent above anchor := by
  have read := Document.read_of_parse one parsed
  have walked := leads.findOrCreate some_step
  obtain ⟨edited, g, changed, grafted, rfl⟩ := exists_graft_of_update parsed some_step done walked
  obtain rfl | ⟨r, s, rfl⟩ := List.eq_nil_or_concat' route
  · exact absurd rfl some_step
  obtain ⟨q, a, front, back, rfl, way, children, -, -⟩ := leads.last
  obtain ⟨changed', site⟩ := site?_changed read way.below? children changed
  have there := Element.below?_of_changeBelow? way.below? changed'
  -- writing raised a flag in the target
  have flagged : (fields.applied t).isPristine = false :=
    (Fields.retains_writeAll t fields.written).flagged.resolve_left dirty
  rcases graft_outcome grafted site there rfl with
    ⟨pristine, -⟩ | ⟨-, unit, anchor, out, drawn, -, located, -, rfl⟩
  · rw [flagged] at pristine
    cases pristine
  · exact ⟨a, ⟨q⟩, anchor, walked, rfl, leads.below?, nofun, congrArg some (fields.tag_applied t).1,
      parent?_child q front.length, way.below?, located, rfl⟩

/-- **A walk that creates elements**: the outermost of them is laid out. -/
theorem exists_reported_of_grown (one : AtMostOneMark text) (parsed : Document.parse text = .ok d)
    (some_step : route ≠ []) (done : update text route fields settings markers = .ok u) {w : Walk}
    (walked : findOrCreate d.root .root route = .ok (w.root, w.arrival)) {e : Element}
    (here : w.here? = some e) {q rest : List Nat} {parent x : Element}
    (grown : Grown d.root w q parent x rest) :
    ∃ anchor, Reported d route u.report w.root w.arrival x parent ⟨q⟩ anchor := by
  have read := Document.read_of_parse one parsed
  obtain ⟨edited, g, changed, grafted, rfl⟩ := exists_graft_of_update parsed some_step done walked
  obtain ⟨x', built, named, tree⟩ := grown.exists_changed here
    (Fields.retains_writeAll e fields.written) (fields.tag_applied e).1 changed
  have there := Element.below?_of_changeBelow? grown.there tree
  have located : (parent.append x'.toNode).isLocated = true := by
    obtain ⟨o, stands⟩ := read.below? grown.there
    exact stands.element.1
  -- nothing from the new child down to the target was read
  have site : site? edited w.address = .ok ⟨⟨q⟩, parent.children.length⟩ := by
    have above := siteAbove?_eq (i := parent.children.length) there located rest
      fun q₁ j q₂ _ => by
        rw [Element.below?_append, there, Option.bind_some, Element.below?_appended]
        cases found : x'.below? q₁ with
        | none => rfl
        | some y => exact Element.isLocated_of_built built (Element.mem_within_of_below? found)
    have present : edited.at? w.address = some (fields.applied e) :=
      Element.below?_of_changeBelow? here changed
    rw [site?, present, Option.isNone_some, if_neg Bool.false_ne_true, grown.way, above]
  have first : w.arrival.firstCreated = some ⟨q ++ [parent.children.length]⟩ := by
    have cut : w.address.indices.take (q.length + 1) = q ++ [parent.children.length] := by
      rw [grown.way, ← List.singleton_append, ← List.append_assoc]
      exact List.take_left' (List.length_append ..)
    rw [Arrival.firstCreated, Walk.arrival, grown.depth, Option.map_some, Address.truncated, cut]
  have element : w.root.at? ⟨q ++ [parent.children.length]⟩ = some x := by
    rw [Element.at?, Element.below?_append, Element.below?_of_changeBelow? grown.there grown.tree,
      Option.bind_some]
    exact Element.below?_appended parent x []
  rcases graft_outcome grafted site there rfl with
    ⟨pristine, -⟩ | ⟨-, unit, anchor, out, drawn, -, position, -, rfl⟩
  · rw [not_isPristine_of_built built] at pristine
    cases pristine
  · refine ⟨anchor, walked, rfl, ?_, ?_, congrArg some named, ?_, grown.there, position, rfl⟩
    · rw [first]
      exact element
    · intro name mem
      exact Option.some.inj (grown.named.symm.trans mem)
    · rw [first]
      exact parent?_child q parent.children.length

/-- **What an update reports.**  Where everything is in place it gives the text back, and tells of
    nothing.  Else it tells of the target, or of the outermost element that was created, and of the
    element that was read around it. -/
theorem update_report {pairs : List (Text × Scalar)} (one : AtMostOneMark text)
    (parsed : Document.parse text = .ok d) (some_step : route ≠ [])
    (done : update text route (.ofPairs pairs) settings markers = .ok u) :
    (InPlace d.root route (.ofPairs pairs) ∧ u = ⟨text, ⟨false, [], none, none⟩⟩) ∨
      (¬ InPlace d.root route (.ofPairs pairs) ∧ ∃ root arrival x parent above anchor,
        Reported d route u.report root arrival x parent above anchor) := by
  by_cases place : InPlace d.root route (.ofPairs pairs)
  · left
    refine ⟨place, ?_⟩
    obtain ⟨p, t, leads, held⟩ := (inPlace_iff one parsed).1 place
    obtain ⟨g, grafted, -⟩ := graft_of_update parsed some_step done
    obtain ⟨unit, valid⟩ := unit_of_graft grafted
    -- everything is held, so the update gives the text back, and there is only one result
    have again := update_of_leads parsed (Document.read_of_parse one parsed) some_step leads held valid
      markers
    exact Except.ok.inj (done.symm.trans again)
  · right
    refine ⟨place, ?_⟩
    have there : d.root.at? .root = some d.root := rfl
    have walked := findOrCreate_eq_after there some_step
    have reached := (reached_start there).after route
    obtain ⟨e, here⟩ := reached.here
    generalize (Walk.start d.root .root).after route = w at walked reached here
    rcases reached.tree with ⟨nowhere, nothing, same⟩ | ⟨q, parent, x, rest, -, grown⟩
    · rw [Walk.arrival, nowhere, nothing, same] at walked
      obtain ⟨t, leads⟩ := leads_of_findOrCreate some_step walked
      -- fields that change nothing are held, and then everything would be in place
      have dirty : (Fields.ofPairs pairs).applied t ≠ t := by
        intro fixed
        have held := Fields.held_applied (Fields.distinct_ofPairs pairs) t
        rw [fixed] at held
        exact place ((inPlace_iff one parsed).2 ⟨_, t, leads, held⟩)
      obtain ⟨parent, above, anchor, reported⟩ :=
        exists_reported_of_leads one parsed some_step done leads dirty
      exact ⟨_, _, t, parent, above, anchor, reported⟩
    · obtain ⟨anchor, reported⟩ := exists_reported_of_grown one parsed some_step done walked here grown
      exact ⟨w.root, w.arrival, x, parent, ⟨q⟩, anchor, reported⟩

end

/-- A field in a new element of the small document, and nothing to do in an element that is there. -/
theorem update_report_filledRoot :
    AtMostOneMark Sample.text ∧ Document.parse Sample.text = .ok Sample.document ∧
    update Sample.text Sample.route Sample.fields .standard Sample.markers = .ok Sample.updated ∧
    (¬ InPlace Sample.root Sample.route Sample.fields ∧ ∃ root arrival x parent above anchor,
      Reported Sample.document Sample.route Sample.updated.report root arrival x parent above anchor) ∧
    InPlace Sample.root [.named ['b']] (.ofPairs []) := by
  have one : AtMostOneMark Sample.text := by decide
  refine ⟨one, Sample.parse_text, Sample.update_text, ?_, ?_⟩
  · rcases update_report one Sample.parse_text (List.cons_ne_nil _ _) Sample.update_text with
      ⟨-, same⟩ | reported
    · exact absurd (congrArg (·.report.changed) same) (by decide)
    · exact reported
  · have done : update Sample.text [.named ['b']] (.ofPairs []) .standard Sample.markers
        = .ok ⟨Sample.text, ⟨false, [], none, none⟩⟩ := by decide +kernel
    rcases update_report one Sample.parse_text (List.cons_ne_nil _ _) done with
      ⟨place, -⟩ | ⟨-, root, arrival, x, parent, above, anchor, reported⟩
    · exact place
    · cases reported.grafted

end XmlGraft
