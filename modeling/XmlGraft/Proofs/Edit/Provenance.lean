/-
  Provenance — what an edited tree still knows of the source it was read from.

  An element that was read carries its tags as they stand in the source, and flags that tell whether
  something in it changed.  The writer copies what is not flagged and the graft goes up to what was
  read, so both trust that edits never let an element tell of a source it does not come from.

  1. **Elements of a tree** (`Element.within`) in document order, and what they tell of a source
     (`records`).  Both are lists: that edits move nothing is then that one list is a sublist of the
     other, which also gives the order of positions for free.

  2. **What a change retains** (`Retains`): it may lose records but makes up none and moves none,
     keeps records above records, and leaves what it does not flag as it was.  This composes
     (`Retains.trans`), so a run of changes needs no more than each change by itself.

  3. **Single changes** (`retains_run?`, `retains_writeAll`, `retains_changeEnd`): an edit, fields
     that are written, a route that is walked.  All of them let children go and bring built ones,
     under a flag (`Retains.of_flagged`), or do so in a child (`Retains.putChild`).

  4. **Anywhere in a tree** (`Retains.changeBelow?`, `retains_operated?`): the parents on the way up
     are not flagged themselves, and do not have to be, since they hold one that is.

  5. **What reading records** (`ReadAt.between`, `Document.between_of_parse`): the tags of a
     document begin one behind the other, and a tag that begins further behind has a later position.

  6. **Provenance** (`provenance_of_operated`): both together.  What an edited tree tells was told
     by the tree that was read, and of that one it is true.
-/
import Mathlib.Data.List.Flatten
import Mathlib.Data.List.Nodup
import XmlGraft.Edit.Script
import XmlGraft.Graft.Update
import XmlGraft.Proofs.Edit.Routes
import XmlGraft.Proofs.Graft.Anchors

namespace XmlGraft

open Markup

/-! ## The order of positions -/

namespace Position

/-- **One position before another**: on an earlier line, or further left on the same line. -/
def Before (p q : Position) : Prop := p.line < q.line ∨ p.line = q.line ∧ p.column < q.column

instance (p q : Position) : Decidable (p.Before q) := inferInstanceAs (Decidable (_ ∨ _))

theorem Before.trans {p q r : Position} (h : p.Before q) (h' : q.Before r) : p.Before r := by
  unfold Before at *
  omega

/-- A character moves the position on, to the next column or to the next line. -/
theorem before_step (p : Position) (c : Char) : p.Before (p.step c) := by
  rw [step, Before]
  split
  · exact .inl (Nat.lt_succ_self _)
  · exact .inr ⟨rfl, Nat.lt_succ_self _⟩

/-- Every character moves the position on. -/
theorem before_past (p : Position) (c : Char) (t : Text) : p.Before (p.past (c :: t)) := by
  induction t generalizing p c with
  | nil => exact before_step p c
  | cons d t ih => exact (before_step p c).trans (ih (p.step c) d)

/-- What stands further behind in a text has a later position; one character between is enough,
    since a line feed moves on to another line and anything else to another column. -/
theorem before_behind_append (t : Text) (c : Char) (u : Text) :
    (behind t).Before (behind (t ++ c :: u)) := by
  rw [← past_first, ← past_first, past, past, List.foldl_append]
  exact before_past _ c u

end Position

namespace Markup

/-! ## The elements of a tree -/

mutual

/-- **The elements in a node**, in document order: an element comes before those inside it. -/
def Node.within : Node → List Element
  | .element tag children => ⟨tag, children⟩ :: allWithin children
  | _ => []

/-- The elements in nodes, in document order. -/
def allWithin : List Node → List Element
  | [] => []
  | n :: ns => n.within ++ allWithin ns

end

/-- The elements in an element; it is the first of them. -/
def Element.within (e : Element) : List Element := e.toNode.within

/-- An element comes first, and then what is in its children. -/
theorem Element.within_eq (e : Element) : e.within = e :: allWithin e.children := rfl

theorem allWithin_eq_flatMap (ns : List Node) : allWithin ns = ns.flatMap Node.within := by
  induction ns with
  | nil => rfl
  | cons n ns ih => rw [allWithin, ih, List.flatMap_cons]

theorem allWithin_append (ns ns' : List Node) :
    allWithin (ns ++ ns') = allWithin ns ++ allWithin ns' := by
  simp only [allWithin_eq_flatMap, List.flatMap_append]

/-- An element among nodes is in one of them. -/
theorem mem_allWithin {x : Element} {ns : List Node} :
    x ∈ allWithin ns ↔ ∃ n ∈ ns, x ∈ n.within := by
  rw [allWithin_eq_flatMap, List.mem_flatMap]

theorem Element.mem_within_self (e : Element) : e ∈ e.within := List.mem_cons_self

/-- What is inside an element is inside all that the element is inside of. -/
theorem Node.mem_within_trans {x y : Element} {n : Node} (h : x ∈ n.within) (inner : y ∈ x.within) :
    y ∈ n.within := by
  induction n using Node.induct with
  | element tag children ih =>
    rw [Node.within, List.mem_cons] at h
    rcases h with rfl | h
    · exact inner
    · obtain ⟨n, mem, inside⟩ := mem_allWithin.1 h
      exact List.mem_cons_of_mem _ (mem_allWithin.2 ⟨n, mem, ih n mem inside⟩)
  | text raw | comment raw | other markup => cases h

/-- What holds of all nodes of a tree holds of its elements. -/
theorem Node.Every.within {p : Node → Prop} {n : Node} (h : n.Every p) {x : Element}
    (mem : x ∈ n.within) : p x.toNode := by
  induction n using Node.induct with
  | element tag children ih =>
    obtain ⟨own, below⟩ := every_element.1 h
    rw [Node.within, List.mem_cons] at mem
    rcases mem with rfl | mem
    · exact own
    · obtain ⟨n, child, inside⟩ := mem_allWithin.1 mem
      exact ih n child (below n child) inside
  | text raw | comment raw | other markup => cases mem

/-- The element at a path is one of those in the tree. -/
theorem Element.mem_within_of_below? {e a : Element} {p : List Nat} (h : e.below? p = some a) :
    a ∈ e.within := by
  induction p generalizing e with
  | nil =>
    obtain rfl := Option.some.inj h
    exact e.mem_within_self
  | cons i p ih =>
    obtain ⟨front, c, back, children, rfl, found⟩ := below?_cons.1 h
    rw [within_eq, children]
    exact List.mem_cons_of_mem _ (mem_allWithin.2 ⟨c.toNode, by simp, ih found⟩)

/-! ## Records -/

/-- **What an element tells of its source**: its name and where its tags stand. -/
def Element.record? (e : Element) : Option (Text × Origin) := e.tag.origin.map (e.name, ·)

/-- What elements tell of their source, in order. -/
def records (es : List Element) : List (Text × Origin) := es.filterMap Element.record?

@[simp] theorem records_nil : records [] = [] := rfl

theorem records_append (es es' : List Element) : records (es ++ es') = records es ++ records es' :=
  List.filterMap_append

/-- An element tells its own record first, if it has one, and then those of what is inside it. -/
theorem records_within (e : Element) :
    records e.within = e.record?.toList ++ records (allWithin e.children) := by
  rw [Element.within_eq, records, records, List.filterMap_cons]
  cases e.record? <;> rfl

theorem record?_eq_none_iff {e : Element} : e.record? = none ↔ e.tag.origin = none :=
  Option.map_eq_none_iff

theorem mem_records {es : List Element} {name : Text} {o : Origin} :
    (name, o) ∈ records es ↔ ∃ x ∈ es, x.name = name ∧ x.tag.origin = some o := by
  simp only [records, List.mem_filterMap, Element.record?, Option.map_eq_some_iff, Prod.mk.injEq]
  grind

/-- **Built in memory**: no element in the node tells of a source. -/
def Node.Built (n : Node) : Prop := ∀ x ∈ n.within, x.tag.origin = none

/-- Nothing is told exactly when no element comes from a source. -/
theorem records_eq_nil_iff {es : List Element} :
    records es = [] ↔ ∀ x ∈ es, x.tag.origin = none := by
  rw [records, List.filterMap_eq_nil_iff]
  exact forall₂_congr fun _ _ => record?_eq_none_iff

theorem Node.Built.records {n : Node} (h : n.Built) : records n.within = [] := records_eq_nil_iff.2 h

/-- An element inside a node that was built was built. -/
theorem Node.Built.inside {n : Node} (h : n.Built) {x : Element} (mem : x ∈ n.within) :
    x.toNode.Built := fun _ inner => h _ (Node.mem_within_trans mem inner)

theorem built_of_leaf {n : Node} (h : n.element? = none) : n.Built := by
  cases n with
  | element tag children => cases h
  | _ => exact List.forall_mem_nil _

/-- **What was built is not pristine.**  A pristine element is copied from its source in one
    piece, and for what was built there is no source to copy from. -/
theorem not_isPristine_of_built {x : Element} (h : x.toNode.Built) : x.isPristine = false := by
  have none := h x x.mem_within_self
  rw [Element.isPristine, Element.toNode, Node.isPristine, Tag.isPristine, none]
  rfl

/-! ## What a change retains -/

/-- **Nothing built stands above something read.** -/
def Element.Rooted (e : Element) : Prop := ∀ x ∈ e.within, x.tag.origin = none → x.toNode.Built

/-- **What a change of an element retains** of what it told of its source. -/
structure Retains (e e' : Element) : Prop where
  /-- The element itself tells what it told. -/
  record : e'.record? = e.record?
  /-- What changed is flagged. -/
  flagged : e' = e ∨ e'.isPristine = false
  /-- Records may go; none is made up, and none is moved. -/
  records : (records e'.within).Sublist (records e.within)
  /-- Nothing built comes to stand above something read. -/
  rooted : e.Rooted → e'.Rooted
  /-- What is pristine now stood there before, just as it is. -/
  pristine : ∀ x ∈ e'.within, x.isPristine = true → x ∈ e.within

theorem Retains.refl (e : Element) : Retains e e :=
  ⟨rfl, .inl rfl, .refl _, id, fun _ mem _ => mem⟩

/-- **Changes that retain compose.**  The records at the end are among those in between, and what
    is pristine at the end was pristine in between, where it was an old element. -/
theorem Retains.trans {e e' e'' : Element} (h : Retains e e') (h' : Retains e' e'') :
    Retains e e'' where
  record := h'.record.trans h.record
  flagged := by
    rcases h'.flagged with rfl | flag
    · exact h.flagged
    · exact .inr flag
  records := h'.records.trans h.records
  rooted := h'.rooted ∘ h.rooted
  pristine x mem pristine := h.pristine x (h'.pristine x mem pristine) pristine

/-- What is built stays built. -/
theorem Retains.built {e e' : Element} (h : Retains e e') (built : e.toNode.Built) :
    e'.toNode.Built := by
  have nothing := h.records
  rw [show Markup.records e.within = [] from Node.Built.records built, List.sublist_nil] at nothing
  exact records_eq_nil_iff.1 nothing

/-- **A flagged change** of an element: children may go, built ones may come, and the flag is
    raised.  The flag is what makes it harmless, since the element then is no longer pristine and
    nothing is claimed of it as a whole. -/
theorem Retains.of_flagged {e e' : Element} (record : e'.record? = e.record?)
    (flag : e'.isPristine = false)
    (known : (Markup.records (allWithin e'.children)).Sublist (Markup.records (allWithin e.children)))
    (children : ∀ n ∈ e'.children, n ∈ e.children ∨ n.Built) : Retains e e' := by
  have whole : (Markup.records e'.within).Sublist (Markup.records e.within) := by
    rw [records_within, records_within, record]
    exact (List.Sublist.refl _).append known
  refine ⟨record, .inr flag, whole, fun rooted x mem none => ?_, fun x mem pristine => ?_⟩
  · rw [Element.within_eq, List.mem_cons] at mem
    rcases mem with rfl | mem
    · -- the element was built before, so there was nothing that it could have brought along
      have before := rooted e e.mem_within_self (by
        rw [← record?_eq_none_iff, ← record]
        exact record?_eq_none_iff.2 none)
      rw [show Markup.records e.within = [] from before.records, List.sublist_nil] at whole
      exact records_eq_nil_iff.1 whole
    · -- further down it is in an old child, or in one that was built
      obtain ⟨n, child, inside⟩ := mem_allWithin.1 mem
      rcases children n child with old | new
      · exact rooted x (List.mem_cons_of_mem _ (mem_allWithin.2 ⟨n, old, inside⟩)) none
      · exact new.inside inside
  · rw [Element.within_eq, List.mem_cons] at mem
    rcases mem with rfl | mem
    · rw [flag] at pristine
      cases pristine
    · obtain ⟨n, child, inside⟩ := mem_allWithin.1 mem
      rcases children n child with old | new
      · exact List.mem_cons_of_mem _ (mem_allWithin.2 ⟨n, old, inside⟩)
      · rw [not_isPristine_of_built (new.inside inside)] at pristine
        cases pristine

/-- **A change of a child** shows in the parent, whose pristineness asks for that of all its
    children.  The records of the children before it and behind it stay, in their order. -/
theorem Retains.putChild {e c c' : Element} {front back : List Node} (h : Retains c c')
    (children : e.children = front ++ c.toNode :: back) :
    Retains e ⟨e.tag, front ++ c'.toNode :: back⟩ := by
  have around (x : Element) : allWithin (front ++ x.toNode :: back)
      = allWithin front ++ (x.within ++ allWithin back) := by
    rw [allWithin_append, allWithin]
    rfl
  have whole : (Markup.records (⟨e.tag, front ++ c'.toNode :: back⟩ : Element).within).Sublist
      (Markup.records e.within) := by
    rw [records_within, records_within, children, around, around]
    simp only [records_append]
    exact (List.Sublist.refl _).append ((List.Sublist.refl _).append
      (h.records.append (List.Sublist.refl _)))
  -- an element of the new tree is in the changed child or was there before
  have inside {x : Element} (mem : x ∈ allWithin (front ++ c'.toNode :: back)) :
      x ∈ c'.within ∨ x ∈ e.within := by
    rw [around] at mem
    rw [e.within_eq, children, around]
    simp only [List.mem_append, List.mem_cons] at mem ⊢
    tauto
  have above {x : Element} (mem : x ∈ c.within) : x ∈ e.within := by
    rw [Element.within_eq, children, around]
    exact List.mem_cons_of_mem _ (List.mem_append_right _ (List.mem_append_left _ mem))
  have flagged : (⟨e.tag, front ++ c'.toNode :: back⟩ : Element) = e ∨
      (⟨e.tag, front ++ c'.toNode :: back⟩ : Element).isPristine = false := by
    rcases h.flagged with rfl | flag
    · exact .inl (by rw [← children])
    · refine .inr (Bool.eq_false_iff.2 fun pristine => ?_)
      rw [Element.isPristine, Element.toNode, Node.isPristine, Bool.and_eq_true] at pristine
      have own : c'.isPristine = true := allPristine_mem pristine.2 c'.toNode (by simp)
      rw [flag] at own
      cases own
  refine ⟨rfl, flagged, whole, fun rooted x mem none => ?_, fun x mem pristine => ?_⟩
  · rw [Element.within_eq, List.mem_cons] at mem
    rcases mem with rfl | mem
    · -- the parent was built, so it holds nothing that was read, and the changed child brings
      -- nothing
      have before := rooted e e.mem_within_self none
      rw [show Markup.records e.within = [] from before.records, List.sublist_nil] at whole
      exact records_eq_nil_iff.1 whole
    · rcases inside mem with below | old
      · exact h.rooted (fun y inner => rooted y (above inner)) x below none
      · exact rooted x old none
  · rw [Element.within_eq, List.mem_cons] at mem
    rcases mem with rfl | mem
    · rcases flagged with same | flag
      · rw [same]
        exact e.mem_within_self
      · rw [flag] at pristine
        cases pristine
    · rcases inside mem with below | old
      · exact above (h.pristine x below pristine)
      · exact old

/-- **A change of an element further down** is retained all the way up.  By induction on the path;
    no element on the way gets a flag, and none needs one. -/
theorem Retains.changeBelow? {e e' a a' : Element} {p : List Nat} (h : Retains a a')
    (found : e.below? p = some a) (changed : e.changeBelow? (fun _ => a') p = some e') :
    Retains e e' := by
  induction p generalizing e e' with
  | nil =>
    cases found
    cases changed
    exact h
  | cons i p ih =>
    obtain ⟨front, c, back, children, rfl, there⟩ := Element.below?_cons.1 found
    rw [Element.changeBelow?_cons children, Option.map_eq_some_iff] at changed
    obtain ⟨c', inner, rfl⟩ := changed
    exact (ih there inner).putChild children

/-! ## Edits -/

/-- A change of the list of children, which raises the flag whatever it does. -/
theorem retains_editChildren (e : Element) {f : List Node → List Node}
    (known : (records (allWithin (f e.children))).Sublist (records (allWithin e.children)))
    (children : ∀ n ∈ f e.children, n ∈ e.children ∨ n.Built) : Retains e (e.editChildren f) := by
  refine .of_flagged rfl ?_ known children
  simp [Element.isPristine, Element.toNode, Element.editChildren, Node.isPristine, Tag.isPristine]

/-- A built node among nodes adds no record. -/
theorem records_insertIdx {n : Node} (built : n.Built) (i : Nat) (ns : List Node) :
    records (allWithin (ns.insertIdx i n)) = records (allWithin ns) := by
  induction ns generalizing i with
  | nil =>
    cases i with
    | zero => simp [allWithin, built.records]
    | succ i => rw [List.insertIdx_succ_nil]
  | cons m ns ih =>
    cases i with
    | zero => rw [List.insertIdx_zero, allWithin, records_append, built.records, List.nil_append]
    | succ i =>
      rw [List.insertIdx_succ_cons, allWithin, allWithin, records_append, records_append, ih]

/-- A built node behind the others is retained like this: it tells nothing, and raises the flag. -/
theorem retains_append {n : Node} (built : n.Built) (e : Element) : Retains e (e.append n) := by
  refine retains_editChildren e ?_ fun m mem => ?_
  · simp [allWithin_append, allWithin, records_append, built.records]
  · rcases List.mem_append.1 mem with old | new
    · exact .inl old
    · rw [List.mem_singleton.1 new]
      exact .inr built

/-- The nodes for a value are texts, so they tell nothing. -/
theorem built_valueNodes (value : Text) : ∀ n ∈ Element.valueNodes value, n.Built := by
  intro n mem
  rw [Element.valueNodes] at mem
  split at mem
  · cases mem
  · rw [List.mem_singleton.1 mem]
    exact built_of_leaf rfl

/-- Nodes that were all built tell nothing together. -/
theorem records_of_built {ns : List Node} (built : ∀ n ∈ ns, n.Built) :
    records (allWithin ns) = [] := by
  refine records_eq_nil_iff.2 fun x mem => ?_
  obtain ⟨n, child, inside⟩ := mem_allWithin.1 mem
  exact built n child x inside

/-- Setting a text may drop all that an element held, and brings nothing but a text. -/
theorem retains_setText (e : Element) (value : Text) : Retains e (e.setText value) := by
  rw [Element.setText]
  split
  · exact .refl e
  · refine retains_editChildren e ?_ fun n mem => .inr (built_valueNodes value n mem)
    rw [records_of_built (built_valueNodes value)]
    exact List.nil_sublist _

/-- Setting an attribute leaves the children alone, and flags the tag. -/
theorem retains_setAttribute (e : Element) (name value : Text) :
    Retains e (e.setAttribute name value) := by
  rw [Element.setAttribute]
  split
  · exact .refl e
  · refine .of_flagged rfl ?_ (List.Sublist.refl _) fun n mem => .inl mem
    simp [Element.isPristine, Element.toNode, Node.isPristine, Tag.isPristine]

end Markup

/-- **An edit that brings only built nodes.** -/
def Edit.Builds : Edit → Prop
  | append node => node.Built
  | insert _ node => node.Built
  | _ => True

namespace Markup

/-- **Every edit of an element** retains what it tells, provided that the nodes it brings were
    built.  An edit that brings an element from elsewhere would bring records that are none of
    this source. -/
theorem retains_run? {edit : Edit} {e e' : Element} (builds : edit.Builds)
    (done : edit.run? e = some e') : Retains e e' := by
  cases edit with
  | touch =>
    cases done
    exact retains_editChildren e (List.Sublist.refl _) fun n mem => .inl mem
  | append node =>
    cases done
    exact retains_append builds e
  | insert i node =>
    rw [Edit.run?] at done
    split at done
    · next le =>
      cases done
      refine retains_editChildren e ?_ fun n mem => ?_
      · rw [records_insertIdx builds]
      · rcases (List.mem_insertIdx le).1 mem with rfl | old
        · exact .inr builds
        · exact .inl old
    · cases done
  | remove i =>
    rw [Edit.run?] at done
    split at done
    · cases done
      refine retains_editChildren e ?_ fun n mem => .inl (List.mem_of_mem_eraseIdx mem)
      -- one node less, so the elements in it and their records are dropped from the list
      simp only [allWithin_eq_flatMap]
      exact ((List.eraseIdx_sublist _ _).flatMap _).filterMap _
    · cases done
  | setText value =>
    cases done
    exact retains_setText e value
  | setAttribute name value =>
    cases done
    exact retains_setAttribute e name value

end Markup

namespace Fields

/-- Writing one value retains what the element tells. -/
theorem retains_writeOne (e : Element) (name value : Text) :
    Retains e (writeOne e name value).1 := by
  rcases writeOne_cases e name value with ⟨front, c, back, children, -, -, ⟨-, own⟩ | own⟩ | ⟨-, own⟩ <;>
    rw [own]
  · exact .refl e
  · exact (retains_setText c value).putChild children
  · refine retains_append (fun x mem => ?_) e
    rw [Element.toNode, Node.within, List.mem_cons] at mem
    rcases mem with rfl | mem
    · rfl
    · obtain ⟨n, child, inside⟩ := mem_allWithin.1 mem
      exact built_valueNodes value n child x inside

/-- **Writing values** retains what the element tells. -/
theorem retains_writeAll (e : Element) (values : List (Text × Text)) :
    Retains e (writeAll e values).1 := by
  induction values generalizing e with
  | nil => exact .refl e
  | cons v values ih =>
    obtain ⟨name, value⟩ := v
    rw [writeAll_cons]
    exact (retains_writeOne e name value).trans (ih _)

end Fields

/-- **What a step creates is built**, with all that its seed writes into it: the element comes
    from no source, and a seed is a change of it that retains, so nothing in it does. -/
theorem Step.built_create (s : Step) : s.create.toNode.Built := by
  have named : (Element.named s.name).toNode.Built :=
    records_eq_nil_iff.1 rfl
  rw [create]
  split
  · exact (Fields.retains_writeAll _ _).built named
  · exact named

namespace Route

/-- **A change at the end of a route** retains what the change there does.  Where the route leads
    to children that are there it is a change further down, and from the first missing child on a
    built child is added. -/
theorem retains_changeEnd {f : Element → Element} (change : ∀ x, Retains x (f x)) (route : Route)
    (e : Element) : Retains e (changeEnd f route e) := by
  induction route generalizing e with
  | nil => exact change e
  | cons s route ih =>
    cases found : e.findChild? s.accepts with
    | some child =>
      obtain ⟨i, c⟩ := child
      obtain ⟨front, back, children, rfl, -, -⟩ := Element.findChild?_eq_some_iff.1 found
      rw [changeEnd_of_some found, Element.putChild_eq children]
      exact (ih c).putChild children
    | none =>
      rw [changeEnd_of_none found]
      -- what is created is built, and a change in it keeps it built
      exact retains_append ((ih s.create).built s.built_create) e

/-- The walk is a change at its end that changes nothing there. -/
theorem follow_eq_changeEnd (depth : Nat) (e : Element) (route : Route) :
    (follow depth e route).1 = changeEnd id route e := by
  have done := changeBelow?_follow id depth e route
  obtain ⟨a, there⟩ := Element.exists_below?_of_changeBelow? done
  rw [Element.changeBelow?_of_fixed there rfl] at done
  exact Option.some.inj done

end Route

/-! ## Runs of operations -/

/-- **Operation** on the element at an address of a tree. -/
inductive Operation
  | edit (edit : Edit)
  /-- Write fields into the element. -/
  | write (fields : Fields)
  /-- Walk a route from the element, and build what does not exist. -/
  | walk (route : Route)

/-- An operation that brings only built nodes; fields and routes bring no others. -/
def Operation.Builds : Operation → Prop
  | edit e => e.Builds
  | write _ => True
  | walk _ => True

namespace Markup

/-- **One operation in a tree**; none where it finds no element to work on. -/
def Element.operateAt? (root : Element) (a : Address) : Operation → Option Element
  | .edit edit => root.editAt? a edit
  | .write fields => (writeFields root a fields).toOption.map (·.1)
  | .walk route => (Route.findOrCreate root a route).toOption.map (·.1)

/-- **A run of operations**, each at an address of the tree that those before it left. -/
def Element.operated? (root : Element) (run : List (Address × Operation)) : Option Element :=
  run.foldlM (fun root (a, operation) => root.operateAt? a operation) root

/-- **One operation** at an address retains what the tree tells, whether it is an edit, the
    writing of fields or the walk along a route. -/
theorem retains_operateAt? {root root' : Element} {a : Address} {operation : Operation}
    (builds : operation.Builds) (done : root.operateAt? a operation = some root') :
    Retains root root' := by
  cases operation with
  | edit edit =>
    rw [Element.operateAt?, Element.editAt?] at done
    simp only [Option.bind_eq_bind, Option.bind_eq_some_iff] at done
    obtain ⟨e, found, e', edited, changed⟩ := done
    exact (retains_run? builds edited).changeBelow? found changed
  | write fields =>
    rw [Element.operateAt?, writeFields] at done
    split at done
    · cases done
    · next e found =>
      simp only at done
      split at done
      · next root₁ changed =>
        cases done
        exact (Fields.retains_writeAll e _).changeBelow? found changed
      · cases done
  | walk route =>
    rw [Element.operateAt?, Route.findOrCreate] at done
    split at done
    · cases done
    · split at done
      · cases done
      · next e found =>
        simp only at done
        split at done
        · cases done
        · next root₁ changed =>
          cases done
          -- the walk itself is a change, although nothing is changed at its end
          rw [Route.follow_eq_changeEnd] at changed
          exact (Route.retains_changeEnd Retains.refl route e).changeBelow? found changed

/-- **A run** of operations, one after the other, retains what the tree tells, for retaining is
    transitive. -/
theorem retains_operated? {root root' : Element} {run : List (Address × Operation)}
    (builds : ∀ o ∈ run, o.2.Builds) (done : root.operated? run = some root') :
    Retains root root' := by
  induction run generalizing root with
  | nil =>
    obtain rfl := Option.some.inj done
    exact .refl root
  | cons o run ih =>
    obtain ⟨a, operation⟩ := o
    rw [List.forall_mem_cons] at builds
    rw [Element.operated?, List.foldlM_cons] at done
    simp only [Option.bind_eq_bind, Option.bind_eq_some_iff] at done
    obtain ⟨root₁, first, rest⟩ := done
    exact (retains_operateAt? builds.1 first).trans (ih builds.2 rest)

/-! ## What reading records -/

/-- **Elements that begin one behind the other**, between two bytes. -/
structure Between (o stop : Nat) (es : List Element) : Prop where
  apart : es.Pairwise fun x y => x.range.start < y.range.start
  bounds : ∀ x ∈ es, o ≤ x.range.start ∧ x.range.start < stop

theorem Between.nil {o stop : Nat} : Between o stop [] := ⟨.nil, List.forall_mem_nil _⟩

/-- The bounds may be moved apart. -/
theorem Between.wider {o o' stop stop' : Nat} {es : List Element} (h : Between o stop es)
    (left : o' ≤ o) (right : stop ≤ stop') : Between o' stop' es :=
  ⟨h.apart, fun x mem => by
    have := h.bounds x mem
    omega⟩

/-- **Elements before others**, with a byte between the two groups that neither crosses.  That
    byte is where the text of the first group ends and the text of the second begins. -/
theorem Between.append {o middle stop : Nat} {es es' : List Element} (h : Between o middle es)
    (h' : Between middle stop es') (le : o ≤ middle) (le' : middle ≤ stop) :
    Between o stop (es ++ es') := by
  refine ⟨List.pairwise_append.2 ⟨h.apart, h'.apart, fun x mem y mem' => ?_⟩, ?_⟩
  · exact Nat.lt_of_lt_of_le (h.bounds x mem).2 (h'.bounds y mem').1
  · exact List.forall_mem_append.2 ⟨(h.wider (Nat.le_refl _) le').bounds,
      (h'.wider le (Nat.le_refl _)).bounds⟩

/-- An element that begins before all others; its own tag keeps them away from its beginning. -/
theorem Between.cons {o o' stop : Nat} {e : Element} {es : List Element} (h : Between o' stop es)
    (start : e.range.start = o) (lt : o < o') (lt' : o < stop) : Between o stop (e :: es) := by
  refine ⟨List.pairwise_cons.2 ⟨fun x mem => ?_, h.apart⟩, List.forall_mem_cons.2 ⟨?_, ?_⟩⟩
  · rw [start]
    exact Nat.lt_of_lt_of_le lt (h.bounds x mem).1
  · rw [start]
    exact ⟨Nat.le_refl _, lt'⟩
  · exact (h.wider (Nat.le_of_lt lt) (Nat.le_refl _)).bounds

/-- A tag takes a byte at least. -/
theorem Origin.RecordedIn.size_pos {text name : Text} {o : Origin} (h : o.RecordedIn text name) :
    0 < o.opening.text.size := by
  obtain ⟨rest, begins⟩ := h.begins
  rw [← begins]
  simp only [List.cons_append, Text.size_cons]
  exact Nat.add_pos_left (Char.utf8Size_pos _) _

/-- **The elements of a tree that was read** begin one behind the other, each within the bytes of
    its parent.  The induction is on the derivation that says where each node was read. -/
theorem ReadAt.between {text : Text} {o : Nat} {ns : List Node} (h : ReadAt o ns)
    (recorded : ∀ n ∈ ns, n.Every (Node.RecordedIn text)) :
    Between o (o + (writtenAll ns).size) (allWithin ns) := by
  induction h with
  | nil => exact .nil
  | @leaf o n ns none _ ih =>
    rw [List.forall_mem_cons] at recorded
    have nothing : n.within = [] := by
      cases n with
      | element tag children => cases none
      | _ => rfl
    rw [allWithin, nothing, List.nil_append, writtenAll_cons, Text.size_append]
    exact (ih recorded.2).wider (by omega) (by omega)
  -- the tag takes at least a byte, so what stands behind begins later
  | @single o name attributes position opening ns range _ ih =>
    rw [List.forall_mem_cons] at recorded
    obtain ⟨origin, same, own⟩ := recorded.1.own
    obtain rfl := Option.some.inj same
    have pos := own.size_pos
    rw [writtenAll_cons, Text.size_append, ← Nat.add_assoc]
    have written : (Node.element ⟨name, attributes, some ⟨some position, opening, none⟩, false, false⟩
      []).written = opening.text := rfl
    rw [written]
    exact (ih recorded.2).cons (congrArg ByteRange.start range) (by simp only at pos; omega)
      (by simp only at pos; omega)
  | @pair o name attributes position opening closing children ns range inner range' _ ihi ih =>
    rw [List.forall_mem_cons, every_element] at recorded
    obtain ⟨⟨⟨origin, same, own⟩, below⟩, rest⟩ := recorded
    obtain rfl := Option.some.inj same
    have pos := own.size_pos
    have written : (Node.element ⟨name, attributes, some ⟨some position, opening, some closing⟩,
      false, false⟩ children).written = opening.text ++ writtenAll children ++ closing.text :=
      written_pair rfl children
    rw [writtenAll_cons, written, Text.size_append, ← Nat.add_assoc]
    have behind : Between (o + opening.text.size + (writtenAll children).size) _ (allWithin ns) :=
      (ih rest).wider (by simp only [Text.size_append]; omega) (Nat.le_refl _)
    -- what is inside the element, and then what stands behind its closing tag
    have inside := (ihi below).append behind (by omega) (by simp only [Text.size_append]; omega)
    exact inside.cons (congrArg ByteRange.start range) (by simp only at pos; omega)
      (by simp only [Text.size_append] at pos ⊢; omega)

/-- What stands before a byte has that many bytes. -/
theorem size_of_before? {t x : Text} {n : Nat} (h : Text.before? t n = some x) : x.size = n := by
  induction t generalizing n x with
  | nil =>
    cases n with
    | zero => cases h; rfl
    | succ n => cases h
  | cons c t ih =>
    cases n with
    | zero => cases h; rfl
    | succ n =>
      by_cases fits : c.utf8Size ≤ n + 1
      · rw [Text.before?_cons fits, Option.map_eq_some_iff] at h
        obtain ⟨y, found, rfl⟩ := h
        rw [Text.size_cons, ih found]
        omega
      · simp [Text.before?, fits] at h

/-- A piece of a text stands behind what takes the bytes before it. -/
theorem Excerpt.StandsIn.exists_before {text : Text} {x : Excerpt} (h : x.StandsIn text) :
    ∃ before rest, text = before ++ rest ∧ before.size = x.range.start ∧ x.text <+: rest := by
  have cut : text.slice? x.range.start x.range.stop = some x.text := h
  rw [Text.slice?, Option.bind_eq_bind, Option.bind_eq_some_iff] at cut
  obtain ⟨before, found, -⟩ := cut
  obtain ⟨rest, whole⟩ := Text.prefix_of_before? found
  have size := size_of_before? found
  refine ⟨before, rest, whole.symm, size, ?_⟩
  rw [Excerpt.StandsIn, ← whole, ← size] at h
  exact Text.prefix_of_slice? h

/-- **What begins further behind** has a later position.  The piece that begins first begins with
    a bracket, which is at least one character between the two, and bytes are counted by whole
    characters. -/
theorem before_ofByte {text : Text} {x y : Excerpt} (hx : x.StandsIn text) (hy : y.StandsIn text)
    (first : ['<'] <+: x.text) (lt : x.range.start < y.range.start) :
    (Position.ofByte text x.range.start).Before (Position.ofByte text y.range.start) := by
  obtain ⟨b, r, whole, start, begins⟩ := hx.exists_before
  obtain ⟨b', r', whole', start', -⟩ := hy.exists_before
  obtain ⟨rest, rfl⟩ := first.trans begins
  rw [← start, ← start', Position.ofByte, Position.ofByte]
  have cut : text.takeBytes b.size = b := by rw [whole, Text.takeBytes_size]
  have cut' : text.takeBytes b'.size = b' := by rw [whole', Text.takeBytes_size]
  rw [cut, cut']
  rw [whole] at whole'
  -- both pieces stand in one text, so one beginning is a part of the other; the later one is longer
  rcases List.append_eq_append_iff.1 whole' with ⟨u, longer, split⟩ | ⟨u, shorter, -⟩
  · cases u with
    | nil =>
      rw [longer, List.append_nil] at start'
      omega
    | cons c u =>
      obtain ⟨rfl, -⟩ := List.cons.inj split
      rw [longer, withoutMark_append_cons _ (by decide)]
      exact Position.before_behind_append _ _ _
  · have := congrArg Text.size shorter
    rw [Text.size_append] at this
    omega

/-- **Where the elements of a document begin**, in document order: each further behind than the one
    before it, and at a later position. -/
theorem Document.between_of_parse {text : Text} {d : Document} (one : AtMostOneMark text)
    (parsed : parse text = .ok d) :
    d.root.within.Pairwise (fun x y => x.range.start < y.range.start) ∧
      (d.root.within.filterMap Element.position?).Pairwise Position.Before := by
  have recorded := Document.recordedIn_of_parse one parsed
  have all : ∀ n ∈ [d.root.toNode], n.Every (Node.RecordedIn text) :=
    List.forall_mem_singleton.2 recorded
  have between := (Document.read_of_parse one parsed).tree.between all
  have order : d.root.within.Pairwise (fun x y => x.range.start < y.range.start) := by
    have order := between.apart
    rwa [allWithin, allWithin, List.append_nil] at order
  refine ⟨order, List.pairwise_filterMap.2 (order.imp_of_mem ?_)⟩
  intro x y hx hy lt p px q qy
  obtain ⟨o, origin, own⟩ := recorded.within hx
  obtain ⟨o', origin', own'⟩ := recorded.within hy
  have start {z : Element} {o : Origin} (h : z.tag.origin = some o) :
      z.range.start = o.opening.range.start := by
    rw [Element.range, h]
    rfl
  -- the position of an element is that of the byte where its opening tag begins
  rw [Element.position?, origin, Option.bind_some, own.position] at px
  rw [Element.position?, origin', Option.bind_some, own'.position] at qy
  cases px
  cases qy
  rw [start origin, start origin'] at lt
  exact before_ofByte own.opening own'.opening ((List.prefix_append ['<'] _).trans own.begins) lt

/-! ## Provenance -/

/-- **Provenance** of a tree that edits made of the tree of a document. -/
structure Provenance (d : Document) (root : Element) : Prop where
  located : root.isLocated = true
  /-- A position goes with tags. -/
  located_iff : ∀ x ∈ root.within, x.isLocated = true ↔ x.tag.origin.isSome = true
  /-- What stands around a located element is located. -/
  around : ∀ x ∈ root.within, ∀ y ∈ x.within, y.isLocated = true → x.isLocated = true
  /-- Elements tell what they told when they were read, in the same order. -/
  records : (records root.within).Sublist (records d.root.within)
  /-- In document order, the positions go up. -/
  ascending : (root.within.filterMap Element.position?).Pairwise Position.Before
  /-- What is pristine is the element that was read from its bytes. -/
  pristine : ∀ x ∈ root.within, x.isPristine = true →
    x ∈ d.root.within ∧ ∀ y ∈ d.root.within, y.range = x.range → y = x

theorem position?_eq (e : Element) : e.position? = e.record?.bind (·.2.position) := by
  rw [Element.position?, Element.record?, Option.bind_map]
  rfl

/-- **A tree that was changed and retained what it told** has the provenance of the document.  All
    four parts of it are statements about the records of the tree, which are some of those that
    were read, in the same order. -/
theorem Retains.provenance {text : Text} {d : Document} {root : Element} (h : Retains d.root root)
    (one : AtMostOneMark text) (parsed : Document.parse text = .ok d) : Provenance d root := by
  have recorded := Document.recordedIn_of_parse one parsed
  obtain ⟨order, ascending⟩ := Document.between_of_parse one parsed
  have positions (e : Element) : e.within.filterMap Element.position?
      = (Markup.records e.within).filterMap (·.2.position) := by
    rw [Markup.records, List.filterMap_filterMap]
    exact congrArg (fun f => e.within.filterMap f) (funext position?_eq)
  have located_iff : ∀ x ∈ root.within, x.isLocated = true ↔ x.tag.origin.isSome = true := by
    intro x mem
    cases origin : x.tag.origin with
    | none => simp [Element.isLocated, Element.position?, origin]
    | some o =>
      -- what it tells was told by an element that was read
      have told := h.records.subset (mem_records.2 ⟨x, mem, rfl, origin⟩)
      obtain ⟨y, here, -, same⟩ := mem_records.1 told
      obtain ⟨o', same', own⟩ := recorded.within here
      obtain rfl := Option.some.inj (same.symm.trans same')
      simp [Element.isLocated, Element.position?, origin, own.position]
  refine ⟨?_, located_iff, fun x mem y inside located => ?_, h.records, ?_, fun x mem pristine => ?_⟩
  · rw [Element.isLocated, position?_eq, h.record, ← position?_eq]
    exact (Document.read_of_parse one parsed).tree.element.1
  · rw [located_iff y (Node.mem_within_trans mem inside)] at located
    rw [located_iff x mem]
    cases origin : x.tag.origin with
    | some o => rfl
    | none =>
      have rooted : d.root.Rooted := fun z here none => by
        obtain ⟨o, some, -⟩ := recorded.within here
        exact absurd (some.symm.trans none) (by simp)
      -- what is inside something built was built, and has no position
      rw [h.rooted rooted x mem origin y inside] at located
      cases located
  · rw [positions] at ascending ⊢
    exact ascending.sublist (h.records.filterMap _)
  · have here := h.pristine x mem pristine
    refine ⟨here, fun y there same => ?_⟩
    -- no two elements that were read begin at one byte
    have starts : (d.root.within.map (·.range.start)).Nodup :=
      List.pairwise_map.2 (order.imp Nat.ne_of_lt)
    exact List.inj_on_of_nodup_map starts there here (congrArg ByteRange.start same)

/-- **Provenance**: whatever operations that bring only built nodes do to the tree of a document,
    in any order and anywhere in it, what the tree then tells of the source is true.  Elements
    that come from the source say so and nothing else does; their bytes and positions are the ones
    read, and stand in document order; and what is still pristine is what was read there. -/
theorem provenance_of_operated {text : Text} {d : Document} {root : Element}
    {run : List (Address × Operation)} (one : AtMostOneMark text)
    (parsed : Document.parse text = .ok d) (builds : ∀ o ∈ run, o.2.Builds)
    (done : d.root.operated? run = some root) : Provenance d root :=
  (retains_operated? builds done).provenance one parsed

/-! ### A tree that loses a child and gains two -/

namespace Pruned

/-- Two children on two lines, and an element in the second. -/
def text : Text := "<a><b/>\n<c><d/></c></a>".toList

/-- The innermost element. -/
def inner : Element :=
  ⟨⟨['d'], [], some ⟨some ⟨2, 4⟩, ⟨⟨11, 15⟩, "<d/>".toList⟩, none⟩, false, false⟩, []⟩

/-- The tag of the second child. -/
def tag : Tag :=
  ⟨['c'], [], some ⟨some ⟨2, 1⟩, ⟨⟨8, 11⟩, "<c>".toList⟩, some ⟨⟨15, 19⟩, "</c>".toList⟩⟩, false, false⟩

/-- The tag of the root element. -/
def rootTag : Tag :=
  ⟨['a'], [], some ⟨some ⟨1, 1⟩, ⟨⟨0, 3⟩, "<a>".toList⟩, some ⟨⟨19, 23⟩, "</a>".toList⟩⟩, false, false⟩

/-- The first child. -/
def first : Element :=
  ⟨⟨['b'], [], some ⟨some ⟨1, 4⟩, ⟨⟨3, 7⟩, "<b/>".toList⟩, none⟩, false, false⟩, []⟩

/-- What the text is read as. -/
def document : Document :=
  ⟨Source.ofText text, [], ⟨rootTag, [first.toNode, .text ['\n'], .element tag [inner.toNode]]⟩, []⟩

/-- The first child is removed, a route is built below the second, and a field is written into it. -/
def run : List (Address × Operation) :=
  [(.root, .edit (.remove 0)), (.root, .walk [.named ['c'], .named ['f']]),
    (⟨[1]⟩, .write (.ofPairs [(['g'], .text ['x'])]))]

/-- The tree after the run. -/
def root : Element :=
  ⟨{ rootTag with contentChanged := true }, [.text ['\n'], .element { tag with contentChanged := true }
    [inner.toNode, (Element.named ['f']).toNode, (Element.ofValue ['g'] ['x']).toNode]]⟩

theorem parse_text : Document.parse text = .ok document := by with_unfolding_all rfl

theorem operated?_run : document.root.operated? run = some root := by with_unfolding_all rfl

theorem builds_run : ∀ o ∈ run, o.2.Builds := by
  simp [run, Operation.Builds, Edit.Builds]

end Pruned

/-- The innermost element is still what was read at its bytes. -/
theorem provenance_pruned :
    AtMostOneMark Pruned.text ∧ Document.parse Pruned.text = .ok Pruned.document ∧
    (∀ o ∈ Pruned.run, o.2.Builds) ∧ Pruned.document.root.operated? Pruned.run = some Pruned.root ∧
    Provenance Pruned.document Pruned.root ∧ Pruned.inner ∈ Pruned.root.within ∧
    Pruned.inner.isPristine = true := by
  have one : AtMostOneMark Pruned.text := by decide
  exact ⟨one, Pruned.parse_text, Pruned.builds_run, Pruned.operated?_run,
    provenance_of_operated one Pruned.parse_text Pruned.builds_run Pruned.operated?_run,
    by simp [Pruned.root, Element.within, Element.toNode, Node.within, allWithin, Pruned.inner], rfl⟩

end Markup

end XmlGraft
