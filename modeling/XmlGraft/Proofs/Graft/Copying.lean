/-
  Copying — the texts that a graft writes can be copied from the source.

  There are two ways to write a document.  `Document.written` puts every element together from its
  tags and its children.  `Document.copied?` cuts an element in which nothing changed out of the
  source in one piece, and looks every other tag up there as well.  The graft writes twice over: the
  document with a marker in it, or, where nothing changed, the document itself.  It puts both
  together.  So whoever writes by copying has to know that the two ways agree on just these
  documents, not only on the ones that a script of edits leaves behind.

  1. **What keeps a tree grounded** (`Retains.grounded`).  A tree is copied as it is written when
     every element in it is grounded: its tags stand in the source, and if it is pristine, so does
     the whole element.  Both parts are read off what a change retains.  A change makes up no
     records, so a tag that is remembered was remembered before, where it stood in the source; and an
     element that is pristine afterwards was there before, just as it is.  No case of an edit, of a
     field or of a route is looked at again.

  2. **Marking is such a change** (`retains_marked`).  Some layout goes from the children of the
     parent, one child gives way to a text, and the parent is flagged.  What records are left are
     among those that were there.

  3. **So are the changes that lead up to a graft**: walking a route and building what is missing
     (`retains_findOrCreate`), writing fields (`retains_writeFields`), and the steps of a plugin's
     configuration one behind the other (`Maven.PluginUpdate.retains_changeTree`).

  4. **Copies** (`Graft.Copies`).  The document as it is, and the document with any text in the place
     of any child, are copied as they are written.  That holds of what a route prepares
     (`Prepared.copies_ofRoute`) and of what a plugin prepares (`Prepared.copies_ofPlugin`), whatever
     the route, the fields and the marker.
-/
import XmlGraft.Proofs.Edit.Provenance
import XmlGraft.Proofs.Graft.Prepared
import XmlGraft.Proofs.Markup.Copied

namespace XmlGraft

open Markup

/-! ## What keeps a tree grounded -/

namespace Markup

/-- What holds of the elements of a tree, and of whatever is no element, holds of all its nodes.
    The converse is `Node.Every.within`. -/
theorem Node.every_of_within {p : Node → Prop} (leaf : ∀ n, n.element? = none → p n) {n : Node}
    (h : ∀ x ∈ n.within, p x.toNode) : n.Every p := by
  induction n using Node.induct with
  | element tag children ih =>
    refine .element (h ⟨tag, children⟩ List.mem_cons_self) fun m mem => ih m mem fun x inside => ?_
    exact h x (List.mem_cons_of_mem _ (mem_allWithin.2 ⟨m, mem, inside⟩))
  | text raw | comment raw | other markup => exact .leaf rfl (leaf _ rfl)

/-- **A change that retains what it found keeps a tree grounded.**  The tags of an element are looked
    up in the element that told of them before the change, and a pristine element is one that was
    there before. -/
theorem Retains.grounded {source : Text} {e e' : Element} (h : Retains e e')
    (grounded : e.toNode.Every (Node.GroundedIn source)) :
    e'.toNode.Every (Node.GroundedIn source) := by
  refine Node.every_of_within (fun n none => ?_) fun x inside o origin => ?_
  · cases n with
    | element tag children => cases none
    | _ => trivial
  · -- the record of the element is an old one, maybe of an element with other content
    have told := h.records.subset (mem_records.2 ⟨x, inside, rfl, origin⟩)
    obtain ⟨y, before, -, same⟩ := mem_records.1 told
    obtain ⟨opening, closing, -⟩ := grounded.within before o same
    refine ⟨opening, closing, fun pristine => ?_⟩
    -- a pristine element is an old one as a whole
    exact (grounded.within (h.pristine x inside pristine) o origin).2.2 pristine

/-! ## Marking -/

/-- A text in the place of a child brings no record, and takes those of the child away. -/
theorem records_set {n : Node} (built : n.Built) (i : Nat) (ns : List Node) :
    (records (allWithin (ns.set i n))).Sublist (records (allWithin ns)) := by
  induction ns generalizing i with
  | nil => exact .refl _
  | cons m ns ih =>
    cases i with
    | zero =>
      rw [List.set_cons_zero, allWithin, allWithin, records_append, records_append, built.records]
      exact List.sublist_append_right _ _
    | succ i =>
      rw [List.set_cons_succ, allWithin, allWithin, records_append, records_append]
      exact (List.Sublist.refl _).append (ih i)

/-- The children without the layout before one of them are some of the children. -/
theorem withoutLayoutBefore_sublist (ns : List Node) (i : Nat) :
    (Graft.withoutLayoutBefore ns i).1.Sublist ns := by
  rw [Graft.withoutLayoutBefore]
  split
  · exact List.eraseIdx_sublist _ _
  · exact .refl _

/-- **Marking retains what an element tells**: layout goes, a child gives way to a text, and the
    element is flagged. -/
theorem retains_marked (e : Element) (i j : Nat) (marker : Text) :
    Retains e (e.editChildren fun ns =>
      (Graft.withoutLayoutBefore ns i).1.set j (.ofText marker)) := by
  have built : (Node.ofText marker).Built := built_of_leaf rfl
  have some_of := withoutLayoutBefore_sublist e.children i
  refine retains_editChildren e ?_ fun n mem => ?_
  · refine (records_set built j _).trans ?_
    simp only [allWithin_eq_flatMap]
    exact (some_of.flatMap _).filterMap _
  · rcases List.mem_or_eq_of_mem_set mem with old | rfl
    · exact .inl (some_of.subset old)
    · exact .inr built

/-! ## The changes before a graft -/

/-- **Walking a route** and building what is missing retains what the tree tells. -/
theorem retains_findOrCreate {root root' : Element} {start : Address} {route : Route}
    {arrival : Route.Arrival} (walked : Route.findOrCreate root start route = .ok (root', arrival)) :
    Retains root root' := by
  have done : root.operateAt? start (.walk route) = some root' := by
    rw [Element.operateAt?, walked]
    rfl
  refine retains_operateAt? ?_ done
  trivial

/-- **Writing fields** into an element retains what the tree tells. -/
theorem retains_writeFields {root root' : Element} {target : Address} {fields : Fields} {count : Nat}
    (wrote : writeFields root target fields = .ok (root', count)) : Retains root root' := by
  have done : root.operateAt? target (.write fields) = some root' := by
    rw [Element.operateAt?, wrote]
    rfl
  refine retains_operateAt? ?_ done
  trivial

end Markup

namespace Maven

/-- Going on to a child, which is created if there is none. -/
theorem Reached.retains_enter {r r' : Reached} {name : Text} (entered : r.enter name = .ok r') :
    Retains r.root r'.root := by
  obtain ⟨⟨root, arrival⟩, walked, same⟩ := exists_of_bind entered
  cases same
  exact retains_findOrCreate walked

/-- Writing fields, if there are any. -/
theorem Reached.retains_write {r r' : Reached} {fields : Option Fields}
    (wrote : r.write fields = .ok r') : Retains r.root r'.root := by
  cases fields with
  | none =>
    cases wrote
    exact .refl _
  | some fields =>
    obtain ⟨⟨root, count⟩, written, same⟩ := exists_of_bind wrote
    cases same
    exact retains_writeFields written

/-- **The configuration of a plugin** retains what the project file tells: each of its steps does,
    and those that nothing is said about are left out. -/
theorem PluginUpdate.retains_changeTree {u : PluginUpdate} {root : Element} {reached : Reached}
    (changed : u.changeTree root = .ok reached) : Retains root reached.root := by
  obtain ⟨plugin, found, rest⟩ := exists_of_bind changed
  have first : Retains root plugin.root := by
    obtain ⟨⟨root₁, arrival⟩, walked, same⟩ := exists_of_bind found
    cases same
    exact retains_findOrCreate walked
  split at rest
  · cases rest
    exact first
  · obtain ⟨entered, into, rest⟩ := exists_of_bind rest
    obtain ⟨written, wrote, rest⟩ := exists_of_bind rest
    have second := (Reached.retains_enter into).trans (Reached.retains_write wrote)
    refine (first.trans second).trans ?_
    -- the block of the deployment comes last, if there is one
    rw [deploy] at rest
    split at rest
    · cases rest
      exact .refl _
    · obtain ⟨block, inner, rest⟩ := exists_of_bind rest
      obtain ⟨block', filled, same⟩ := exists_of_bind rest
      have last := (Reached.retains_enter inner).trans (Reached.retains_write filled)
      cases same
      exact last

end Maven

/-! ## Copies -/

namespace Graft

/-- **The marked document, by copying**: what `mark` puts together, cut out of the source as far as
    nothing changed. -/
def markCopied? (d : Document) (parent : Address) (children : List Node) (i : Nat) (marker : Text) :
    Option Text :=
  match d.root.changeAt? parent (·.editChildren fun _ => children.set i (.ofText marker)) with
  | some root => ({ d with root } : Document).copied?
  | none => d.copied?

/-- **Copies**: whatever a graft writes of a document on its way, copying gives the same. -/
structure Copies (d : Document) : Prop where
  /-- The document, for an element in which nothing changed. -/
  whole : d.copied? = some d.written
  /-- The document with a marker in the place of a child, the layout before the child taken away. -/
  marked : ∀ (parent : Address) (e : Element), d.root.at? parent = some e → ∀ i marker,
    markCopied? d parent (withoutLayoutBefore e.children i).1 (withoutLayoutBefore e.children i).2
        marker
      = some (mark d parent (withoutLayoutBefore e.children i).1
          (withoutLayoutBefore e.children i).2 marker)

/-- **A tree that retained what was read is copied as it is written**, marked or not. -/
theorem copies_of_retains {text : Text} {d : Document} {root : Element} (read : d.Read text)
    (retains : Retains d.root root) : Copies { d with root } := by
  have copied {root' : Element} (retains' : Retains d.root root') :
      ({ d with root := root' } : Document).copied?
        = some ({ d with root := root' } : Document).written := by
    refine Document.copied?_of_grounded ?_
    show root'.toNode.Every (Node.GroundedIn d.source.text)
    rw [read.source]
    exact retains'.grounded read.grounded
  refine ⟨copied retains, fun parent e found i marker => ?_⟩
  rw [markCopied?, mark]
  cases changed : root.changeAt? parent (·.editChildren fun _ =>
      (withoutLayoutBefore e.children i).1.set (withoutLayoutBefore e.children i).2
        (.ofText marker)) with
  | none => exact copied retains
  | some marked =>
    -- the change of the parent is one that marks it
    have same := Element.changeBelow?_congr found
      (f := (·.editChildren fun _ => (withoutLayoutBefore e.children i).1.set
        (withoutLayoutBefore e.children i).2 (.ofText marker)))
      (g := fun _ => e.editChildren fun ns => (withoutLayoutBefore ns i).1.set
        (withoutLayoutBefore e.children i).2 (.ofText marker)) rfl
    have further := (retains_marked e i (withoutLayoutBefore e.children i).2 marker).changeBelow?
      found (same.symm.trans changed)
    exact copied (retains.trans further)

end Graft

/-- What succeeds as a step of an update succeeded in the tree. -/
theorem asFailure_eq_ok {α : Type} {x : Except TargetFault α} {a : α} :
    asFailure x = .ok a ↔ x = .ok a := by
  cases x with
  | error fault => exact iff_of_false nofun nofun
  | ok b => exact ⟨fun h => congrArg _ (Except.ok.inj h), fun h => congrArg _ (Except.ok.inj h)⟩

namespace Prepared

/-- **Fields at the end of a route**: all that is written on the way to the new text is what copying
    gives, be the elements of the route read or built, and be the marker good or not. -/
theorem copies_ofRoute {route : Route} {fields : Fields} {text : Text} {p : Prepared}
    (one : AtMostOneMark text) (prepared : ofRoute route fields text = .ok p) :
    Graft.Copies p.document := by
  obtain ⟨d, read, rest⟩ := exists_of_bind prepared
  obtain ⟨⟨root, arrival⟩, found, rest⟩ := exists_of_bind rest
  obtain ⟨⟨root', count⟩, wrote, same⟩ := exists_of_bind rest
  cases same
  exact Graft.copies_of_retains (Document.read_of_parse one (parse_of_readDocument read))
    ((retains_findOrCreate (asFailure_eq_ok.1 found)).trans
      (retains_writeFields (asFailure_eq_ok.1 wrote)))

/-- **The configuration of a plugin**: the same for a project file. -/
theorem copies_ofPlugin {u : Maven.PluginUpdate} {text : Text} {p : Prepared}
    (one : AtMostOneMark text) (prepared : ofPlugin u text = .ok p) : Graft.Copies p.document := by
  obtain ⟨d, read, rest⟩ := exists_of_bind prepared
  obtain ⟨reached, changed, same⟩ := exists_of_bind rest
  cases same
  exact Graft.copies_of_retains (Document.read_of_parse one (parse_of_readDocument read))
    (Maven.PluginUpdate.retains_changeTree (asFailure_eq_ok.1 changed))

end Prepared

end XmlGraft
