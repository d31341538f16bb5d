/-
  Copied — copying from the source gives what putting the tree together gives.

  There are two ways to write a document.  One puts it together from what its nodes remember
  (`written`), the other copies an element in which nothing changed, as one slice of the source, and
  looks up the tags of all others in it (`copied?`).  The second is the one that runs; the first is
  the one that is reasoned about.

  What is copied of an element is trusted to be what the source says between two bytes.  For the
  elements of a document that was read it is, and it stays so as long as every change raises a flag.

  1. **Grounded trees** (`Node.GroundedIn`): the tags of every element stand in the source, and so
     does a whole element in which nothing has changed.  An element that was built is grounded in
     any source, and a changed one when its tags still are (`groundedIn_of_changed`): that is all
     that an edit has to keep.

  2. **Copies** (`copied?_of_grounded`): a grounded tree is copied as it is written.  The induction
     is on the tree; the flags decide, element by element, in which of the two ways it is copied.

  3. **Trees that were read are grounded** (`ReadAt.grounded`): the induction is on the reading,
     with the text in front of the nodes and behind them.
-/
import XmlGraft.Markup.Copied
import XmlGraft.Proofs.Markup.Extents

namespace XmlGraft.Markup

/-! ## Grounded trees -/

/-- **Grounded**: whatever is copied of the element is what is written for it. -/
def Node.GroundedIn (source : Text) : Node → Prop
  | .element tag children => ∀ o, tag.origin = some o →
      o.opening.StandsIn source ∧ (∀ x, o.closing = some x → x.StandsIn source) ∧
      ((Node.element tag children).isPristine = true →
        source.slice? o.range.start o.range.stop = some (Node.element tag children).written)
  | _ => True

/-- An element that comes from no source is grounded in any, since nothing of it is copied. -/
theorem groundedIn_of_none {source : Text} {tag : Tag} {children : List Node}
    (none : tag.origin = none) : (Node.element tag children).GroundedIn source := by
  intro o origin
  rw [none] at origin
  cases origin

/-- A changed element is grounded when its tags stand in the source: it is no longer copied as a
    whole. -/
theorem groundedIn_of_changed {source : Text} {tag tag' : Tag} {children children' : List Node}
    (h : (Node.element tag children).GroundedIn source) (same : tag'.origin = tag.origin)
    (changed : (Node.element tag' children').isPristine = false) :
    (Node.element tag' children').GroundedIn source := by
  intro o origin
  rw [same] at origin
  obtain ⟨opening, closing, -⟩ := h o origin
  refine ⟨opening, closing, fun pristine => ?_⟩
  rw [changed] at pristine
  cases pristine

/-! ## Copies -/

theorem recut?_of_standsIn {source : Text} {x : Excerpt} (h : x.StandsIn source) :
    x.recut? source = some x := by
  rw [Excerpt.recut?, h]
  rfl

/-- Tags that stand in the source are found there as they are. -/
theorem Tag.recut?_eq {source : Text} {t : Tag}
    (h : ∀ o, t.origin = some o →
      o.opening.StandsIn source ∧ ∀ x, o.closing = some x → x.StandsIn source) :
    t.recut? source = some t := by
  rw [Tag.recut?]
  cases origin : t.origin with
  | none => rfl
  | some o =>
    obtain ⟨opening, closing⟩ := h o origin
    have cut : o.opening.recut? source = some o.opening := recut?_of_standsIn opening
    have same : { t with origin := some o } = t := by rw [← origin]
    obtain ⟨position, first, last⟩ := o
    -- looked up or not, the start tag is the one that is remembered
    cases last with
    | none =>
      simp only [cut, Option.bind_eq_bind, Option.bind_some, same, pure, ite_self]
    | some x =>
      have cut' : x.recut? source = some x := recut?_of_standsIn (closing x rfl)
      simp only [cut, cut', Option.bind_eq_bind, Option.bind_some, same, pure, ite_self]

/-- Nodes that are each copied as they are written are so one behind the other. -/
theorem allCopied?_eq {source : Text} {ns : List Node}
    (each : ∀ n ∈ ns, n.copied? source = some n.written) :
    allCopied? source ns = some (writtenAll ns) := by
  induction ns with
  | nil => rfl
  | cons n ns ih =>
    rw [List.forall_mem_cons] at each
    rw [allCopied?, each.1, ih each.2]
    rfl

/-- **A grounded tree is copied as it is written.**  By induction on the tree; where nothing
    changed, the slice is the element, and elsewhere the tags are found and the children are
    copied. -/
theorem copied?_of_grounded {source : Text} {n : Node} (h : n.Every (Node.GroundedIn source)) :
    n.copied? source = some n.written := by
  induction n using Node.induct with
  | element tag children ih =>
    obtain ⟨own, below⟩ := every_element.1 h
    have inner : allCopied? source children = some (writtenAll children) :=
      allCopied?_eq fun n mem => ih n mem (below n mem)
    have cut : tag.recut? source = some tag :=
      Tag.recut?_eq fun o origin => ⟨(own o origin).1, (own o origin).2.1⟩
    rw [Node.copied?]
    split
    · next pristine =>
      -- the fast path: there is an origin, and its range is the element
      have read : tag.origin.isSome = true := by
        rw [Tag.isPristine] at pristine
        simp only [Bool.and_eq_true] at pristine
        exact pristine.1.1.1
      obtain ⟨o, origin⟩ := Option.isSome_iff_exists.1 read
      rw [origin, Option.bind_some]
      exact (own o origin).2.2 pristine
    · rw [cut, inner, Node.written]
      simp only [Option.bind_eq_bind, Option.bind_some]
      split <;> rfl
  | text raw => rfl
  | comment raw => rfl
  | other markup => rfl

/-- **A document with a grounded root** is copied as it is written. -/
theorem Document.copied?_of_grounded {d : Document}
    (h : d.root.toNode.Every (Node.GroundedIn d.source.text)) : d.copied? = some d.written := by
  rw [Document.copied?, Markup.copied?_of_grounded h]
  rfl

/-! ## Trees that were read -/

/-- An excerpt between two texts stands in the text that they make up, when its range says so. -/
theorem standsIn_middle {source : Text} (before after : Text) {x : Excerpt}
    (whole : source = before ++ x.text ++ after)
    (range : x.range = ⟨before.size, before.size + x.text.size⟩) : x.StandsIn source := by
  rw [Excerpt.StandsIn, range, whole]
  exact Text.slice?_middle _ _ _

/-- **A tree that was read is grounded** in the text that it stands in.  By induction on the
    reading, with the text in front growing by each node and by each start tag that is entered. -/
theorem ReadAt.grounded {source : Text} {o : Nat} {ns : List Node} (h : ReadAt o ns) :
    ∀ left right, left.size = o → source = left ++ writtenAll ns ++ right →
      ∀ n ∈ ns, n.Every (Node.GroundedIn source) := by
  induction h with
  | nil => exact fun _ _ _ _ => List.forall_mem_nil _
  | @leaf o n ns none _ ih =>
    intro left right start whole
    have own : n.GroundedIn source := by
      cases n with
      | element tag children => cases none
      | _ => trivial
    have rest := ih (left ++ n.written) right (by rw [Text.size_append, start]) (by
      rw [whole, writtenAll_cons]
      simp only [List.append_assoc])
    exact List.forall_mem_cons.2 ⟨.leaf none own, rest⟩
  | @single o name attributes position opening ns range _ ih =>
    intro left right start whole
    have whole : source = left ++ opening.text ++ (writtenAll ns ++ right) := by
      rw [whole, writtenAll_cons, written_single rfl]
      simp only [List.append_assoc]
      rfl
    have stands : opening.StandsIn source := by
      refine standsIn_middle _ _ whole ?_
      rw [range, start]
    have own : (Node.element ⟨name, attributes, some ⟨some position, opening, none⟩, false, false⟩
        []).GroundedIn source := by
      intro o' origin
      obtain rfl := Option.some.inj origin
      refine ⟨stands, fun x nothing => ?_, fun _ => ?_⟩
      · cases nothing
      · rw [written_single rfl]
        exact stands
    have rest := ih (left ++ opening.text) right (by rw [Text.size_append, start]) (by
      rw [whole]
      simp only [List.append_assoc])
    exact List.forall_mem_cons.2 ⟨.element own (List.forall_mem_nil _), rest⟩
  | @pair o name attributes position opening closing children ns range inner range' _ ihi ih =>
    intro left right start whole
    have whole : source = left ++ (opening.text ++ writtenAll children ++ closing.text)
        ++ (writtenAll ns ++ right) := by
      rw [whole, writtenAll_cons, written_pair rfl]
      simp only [List.append_assoc]
      rfl
    have first : opening.StandsIn source := by
      refine standsIn_middle left
        (writtenAll children ++ closing.text ++ (writtenAll ns ++ right)) ?_ ?_
      · rw [whole]
        simp only [List.append_assoc]
      · rw [range, start]
    have last : closing.StandsIn source := by
      refine standsIn_middle (left ++ opening.text ++ writtenAll children)
        (writtenAll ns ++ right) ?_ ?_
      · rw [whole]
        simp only [List.append_assoc]
      · rw [range', ← start]
        simp only [Text.size_append, Nat.add_assoc]
    -- an element in which nothing changed is its tags with what is between them
    have own : (Node.element
        ⟨name, attributes, some ⟨some position, opening, some closing⟩, false, false⟩
        children).GroundedIn source := by
      intro o' origin
      obtain rfl := Option.some.inj origin
      refine ⟨first, fun x here => ?_, fun _ => ?_⟩
      · obtain rfl := Option.some.inj here
        exact last
      · rw [written_pair rfl]
        show source.slice? opening.range.start closing.range.stop = _
        rw [range, range', whole, ← start]
        exact Text.slice?_middle _ _ _
    have below := ihi (left ++ opening.text) (closing.text ++ (writtenAll ns ++ right))
      (by rw [Text.size_append, start]) (by
        rw [whole]
        simp only [List.append_assoc])
    have rest := ih (left ++ (opening.text ++ writtenAll children ++ closing.text)) right
      (by rw [Text.size_append, start]) (by
        rw [whole]
        simp only [List.append_assoc])
    exact List.forall_mem_cons.2 ⟨.element own below, rest⟩

/-- **The root element of a document that was read** is grounded in its source. -/
theorem Document.Read.grounded {text : Text} {d : Document} (read : d.Read text) :
    d.root.toNode.Every (Node.GroundedIn text) := by
  have whole : text = d.prolog ++ writtenAll [d.root.toNode] ++ d.epilog := by
    rw [writtenAll_cons, writtenAll_nil, List.append_nil]
    exact read.written.symm
  exact read.tree.grounded d.prolog d.epilog rfl whole _ (List.mem_singleton_self _)

end XmlGraft.Markup
