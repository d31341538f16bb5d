/-
  Scripts — what every edit of a tree keeps.

  A writer that copies what did not change is right as long as no edit leaves a flag unset.  So an
  edit is taken apart once: it leaves the element as it is, or it raises a flag, keeps what the
  element remembers of its source, and adds no nodes but its own.  Everything else is drawn from
  that.

  1. **Fresh nodes** (`Node.Fresh`): trees that were built in memory, under names that are names.

  2. **One edit** (`Edit.cases`): what it can do to an element.  Five of the six kinds change the
     list of children under its flag (`changes_editChildren`).  Setting an attribute is the sixth,
     and the only one that changes a tag; there the names have to be followed
     (`map_name_setAttribute`), since a tag that names an attribute twice cannot be read back.

  3. **Properties that edits keep** (`Stable`): one holds of new nodes, and goes on holding of an
     element whose tag or children changed under a flag.  One edit somewhere in a tree keeps it
     (`Stable.editAt?`), and so does a script (`Stable.edited?`), edit by edit.  On the way up from
     the edited element each parent changes as well, for it has another child; the flag below shows
     in it (`Stable.changeBelow?`), so that the same clause of `Stable` covers it.

  4. Two such properties: to be written as what the node is (`stable_writable`), and to be copied as
     it is written (`stable_grounded`).
-/
import Mathlib.Data.List.TakeDrop
import XmlGraft.Edit.Script
import XmlGraft.Proofs.Markup.Copied
import XmlGraft.Proofs.Markup.Joined
import XmlGraft.Proofs.Text.Splitting

namespace XmlGraft

open Markup

/-! ## New nodes -/

namespace Markup

/-- **Plain attributes**: each name is a name, and none stands twice. -/
structure PlainNames (attributes : List Attribute) : Prop where
  names : ∀ name ∈ attributes.map (·.name), isElementName name = true
  distinct : (attributes.map (·.name)).Nodup

/-- **New**: the node was built in memory, with names that are names. -/
def Node.New : Node → Prop
  | .element tag _ => tag.origin = none ∧ isElementName tag.name = true ∧ PlainNames tag.attributes
  | .text raw => ∃ value, .text raw = Node.ofText value
  | .comment raw => ∃ body, ¬ ['-', '-', '>'] <:+: body ∧ .comment raw = Node.ofComment body
  | .other _ => False

/-- **Fresh**: every node of a tree is new. -/
def Node.Fresh (n : Node) : Prop := n.Every Node.New

theorem fresh_named {name : Text} (h : isElementName name = true) :
    (Element.named name).toNode.Fresh :=
  .element ⟨rfl, h, List.forall_mem_nil _, List.nodup_nil⟩ (List.forall_mem_nil _)

theorem fresh_ofText (value : Text) : (Node.ofText value).Fresh := .leaf rfl ⟨value, rfl⟩

theorem fresh_ofComment {body : Text} (h : ¬ ['-', '-', '>'] <:+: body) :
    (Node.ofComment body).Fresh := .leaf rfl ⟨body, h, rfl⟩

theorem fresh_valueNodes (value : Text) : ∀ n ∈ Element.valueNodes value, n.Fresh := by
  intro n mem
  rw [Element.valueNodes] at mem
  split at mem
  · cases mem
  · rw [List.mem_singleton.1 mem]
    exact fresh_ofText value

theorem PlainNames.named {t : Tag} (h : PlainNames t.attributes) (name : PlainName t.name) :
    t.Named where
  name := name
  keys _ mem := plainName_of_isElementName (h.names _ (List.mem_map_of_mem mem))
  distinct := h.distinct

/-! ## Edits -/

/-- **What an edit can do to a tag**: attributes may change, which is flagged, but no names of
    attributes go, and at most one comes that was not there. -/
structure Tag.EditedTo (t t' : Tag) : Prop where
  origin : t'.origin = t.origin
  name : t'.name = t.name
  attributes : (t'.attributes = t.attributes ∧ t'.tagChanged = t.tagChanged) ∨
    (t'.tagChanged = true ∧ (t'.attributes.map (·.name) = t.attributes.map (·.name) ∨
      ∃ name, isElementName name = true ∧ name ∉ t.attributes.map (·.name) ∧
        t'.attributes.map (·.name) = t.attributes.map (·.name) ++ [name]))

theorem Tag.EditedTo.refl (t : Tag) : t.EditedTo t := ⟨rfl, rfl, .inl ⟨rfl, rfl⟩⟩

/-- **Setting an attribute** keeps the names, or adds its own behind them.  The search goes
    through all attributes, so a name that is there gets no second attribute. -/
theorem map_name_setAttribute (e : Element) (name value : Text) :
    (e.setAttribute name value).attributes.map (·.name) = e.attributes.map (·.name) ∨
      (name ∉ e.attributes.map (·.name) ∧
        (e.setAttribute name value).attributes.map (·.name) = e.attributes.map (·.name) ++ [name]) := by
  rw [Element.setAttribute]
  split
  · exact .inl rfl
  · cases found : e.attributes.find? (·.name == name) with
    | some a =>
      refine .inl ?_
      -- in place: what stands before the attribute, the attribute, and what stands behind it
      obtain ⟨same, front, back, split, first⟩ := List.find?_eq_some_iff_append.1 found
      have same : a.name = name := by simpa using same
      have pass : ∀ b ∈ front, (b.name != name) = true := by simpa using first
      have stop : (a.name != name) = false := by rw [same, bne_self_eq_false]
      have here : (e.attribute? name).isSome = true := by
        rw [Element.attribute?, found]
        rfl
      -- the attributes are cut before the first of the name, as `setAttribute` cuts them
      have cut : e.attributes.span (·.name != name) = (front, a :: back) := by
        rw [List.span_eq_takeWhile_dropWhile, split, List.takeWhile_append_of_pos pass,
          List.dropWhile_append_of_pos pass, List.takeWhile_cons, List.dropWhile_cons, stop]
        simp
      simp only [here, if_true, cut]
      show (front ++ (⟨name, value⟩ : Markup.Attribute) :: back).map (·.name) = _
      rw [split, List.map_append, List.map_append, List.map_cons, List.map_cons, same]
    | none =>
      have nothing : (e.attribute? name).isSome = false := by
        rw [Element.attribute?, found]
        rfl
      refine .inr ⟨fun mem => ?_, ?_⟩
      · obtain ⟨a, mem, same⟩ := List.mem_map.1 mem
        have other := List.find?_eq_none.1 found a mem
        exact other (beq_iff_eq.2 same)
      · simp only [nothing, Bool.false_eq_true, if_false]
        show (e.attributes ++ [(⟨name, value⟩ : Markup.Attribute)]).map (·.name) = _
        rw [List.map_append]
        rfl

end Markup

namespace Edit

/-- **Fresh edits** put in fresh nodes only, under names that are names. -/
def Fresh : Edit → Prop
  | touch => True
  | append node => node.Fresh
  | insert _ node => node.Fresh
  | remove _ => True
  | setText _ => True
  | setAttribute name _ => isElementName name = true

/-- **What an edit can do**: nothing, or something that raises a flag. -/
structure Changes (e e' : Element) : Prop where
  flagged : e'.isPristine = false
  tag : e.tag.EditedTo e'.tag
  children : ∀ n ∈ e'.children, n ∈ e.children ∨ n.Fresh

theorem not_pristine_of_tag {tag : Tag} {children : List Node} (h : tag.isPristine = false) :
    (⟨tag, children⟩ : Element).isPristine = false := by
  rw [Element.isPristine, Element.toNode, Node.isPristine, h, Bool.false_and]

/-- A change of the list of children raises its flag, whatever the change. -/
theorem changes_editChildren (e : Element) (f : List Node → List Node)
    (children : ∀ n ∈ f e.children, n ∈ e.children ∨ n.Fresh) : Changes e (e.editChildren f) where
  flagged := not_pristine_of_tag (by simp [Tag.isPristine])
  tag := ⟨rfl, rfl, .inl ⟨rfl, rfl⟩⟩
  children := children

/-- **Setting an attribute** does nothing when the tag has the value already, and raises the flag
    of the tag otherwise, with which the tag is no longer copied. -/
theorem changes_setAttribute (e : Element) {name : Text} (plain : isElementName name = true)
    (value : Text) :
    e.setAttribute name value = e ∨ Changes e (e.setAttribute name value) := by
  by_cases same : e.attribute? name = some value
  · left
    rw [Element.setAttribute, if_pos same]
  · right
    have names := map_name_setAttribute e name value
    have tag : (e.setAttribute name value).tag
        = { e.tag with attributes := (e.setAttribute name value).attributes, tagChanged := true } := by
      simp only [Element.attributes, Element.setAttribute, if_neg same]
    have children : (e.setAttribute name value).children = e.children := by
      rw [Element.setAttribute, if_neg same]
    have flagged : (e.setAttribute name value).tag.isPristine = false := by
      rw [tag]
      simp [Tag.isPristine]
    refine ⟨not_pristine_of_tag flagged, ?_, fun n mem => .inl ?_⟩
    · rw [tag]
      refine ⟨rfl, rfl, .inr ⟨rfl, ?_⟩⟩
      rcases names with old | ⟨new, more⟩
      · exact .inl old
      · exact .inr ⟨name, plain, new, more⟩
    · rwa [children] at mem

/-- **One edit** leaves the element as it is, or changes it and says so by a flag.  There is no
    third case, in which a change would go unnoticed and the old text be copied. -/
theorem cases {edit : Edit} {e e' : Element} (fresh : edit.Fresh) (done : edit.run? e = some e') :
    e' = e ∨ Changes e e' := by
  cases edit with
  | touch =>
    cases done
    exact .inr (changes_editChildren e id fun n mem => .inl mem)
  | append node =>
    cases done
    refine .inr (changes_editChildren e _ fun n mem => ?_)
    rcases List.mem_append.1 mem with old | new
    · exact .inl old
    · rw [List.mem_singleton.1 new]
      exact .inr fresh
  -- behind the end of the list an insertion is refused, and there is nothing to show
  | insert i node =>
    rw [run?] at done
    split at done
    · next le =>
      cases done
      refine .inr (changes_editChildren e _ fun n mem => ?_)
      rcases (List.mem_insertIdx le).1 mem with rfl | old
      · exact .inr fresh
      · exact .inl old
    · cases done
  | remove i =>
    rw [run?] at done
    split at done
    · cases done
      exact .inr (changes_editChildren e _ fun n mem => .inl (List.mem_of_mem_eraseIdx mem))
    · cases done
  | setText value =>
    cases done
    rw [Element.setText]
    split
    · exact .inl rfl
    · exact .inr (changes_editChildren e _ fun n mem => .inr (fresh_valueNodes value n mem))
  | setAttribute name value =>
    cases done
    exact changes_setAttribute e fresh value

end Edit

/-! ## Properties that edits keep -/

namespace Markup

/-- **Stable**: a property that new nodes have, and that an element keeps when its tag or its children
    change and a flag is raised, on it or below it. -/
structure Stable (p : Node → Prop) : Prop where
  new : ∀ n, n.New → p n
  edited : ∀ {tag tag' : Tag} {children children' : List Node}, p (.element tag children) →
    tag.EditedTo tag' → (Node.element tag' children').isPristine = false →
    p (.element tag' children')

/-- What holds of new nodes holds of every node of a fresh tree. -/
theorem Stable.fresh {p : Node → Prop} (h : Stable p) {n : Node} (fresh : n.Fresh) : n.Every p :=
  fresh.imp h.new

/-- One edit of an element keeps what holds of all its nodes. -/
theorem Stable.run? {p : Node → Prop} (h : Stable p) {edit : Edit} {e e' : Element}
    (fresh : edit.Fresh) (all : e.toNode.Every p) (done : edit.run? e = some e') :
    e'.toNode.Every p ∧ (e' = e ∨ e'.isPristine = false) := by
  rcases Edit.cases fresh done with rfl | changes
  · exact ⟨all, .inl rfl⟩
  · obtain ⟨own, below⟩ := every_element.1 all
    refine ⟨.element (h.edited own changes.tag changes.flagged) fun n mem => ?_,
      .inr changes.flagged⟩
    rcases changes.children n mem with old | new
    · exact below n old
    · exact h.fresh new

/-- **A change further down** keeps what holds of all nodes; the flag that it raised shows all the
    way up. -/
theorem Stable.changeBelow? {p : Node → Prop} (h : Stable p) {e e' a a' : Element} {q : List Nat}
    (all : e.toNode.Every p) (found : e.below? q = some a) (new : a'.toNode.Every p)
    (flagged : a' = a ∨ a'.isPristine = false)
    (changed : e.changeBelow? (fun _ => a') q = some e') :
    e'.toNode.Every p ∧ (e' = e ∨ e'.isPristine = false) := by
  induction q generalizing e e' with
  | nil =>
    cases found
    cases changed
    exact ⟨new, flagged⟩
  | cons i q ih =>
    obtain ⟨front, c, back, children, rfl, there⟩ := Element.below?_cons.1 found
    rw [Element.changeBelow?_cons children, Option.map_eq_some_iff] at changed
    obtain ⟨c', changed', rfl⟩ := changed
    obtain ⟨own, below⟩ := every_element.1 all
    rw [children] at below
    -- if nothing changed below, this element is the one it was; otherwise it has a flag below it
    obtain ⟨inner, same | flag⟩ := ih (below c.toNode (by simp)) there changed'
    · rw [same, ← children]
      exact ⟨all, .inl rfl⟩
    · have flag' : (⟨e.tag, front ++ c'.toNode :: back⟩ : Element).isPristine = false := by
        rw [Element.isPristine, Element.toNode, Node.isPristine, Bool.and_eq_false_iff]
        refine .inr (Bool.eq_false_iff.2 fun pristine => ?_)
        have none := allPristine_mem pristine c'.toNode (by simp)
        rw [Element.isPristine] at flag
        rw [flag] at none
        cases none
      refine ⟨.element (h.edited own (.refl _) flag') fun n mem => ?_, .inr flag'⟩
      rcases List.mem_append.1 mem with mem | mem
      · exact below n (List.mem_append_left _ mem)
      · rcases List.mem_cons.1 mem with rfl | mem
        · exact inner
        · exact below n (List.mem_append_right _ (List.mem_cons_of_mem _ mem))

/-- **One edit in a tree**, at any address, keeps what holds of all nodes: it holds of what is
    new, and survives in the elements above the change, each of which is flagged or holds one that
    is. -/
theorem Stable.editAt? {p : Node → Prop} (h : Stable p) {edit : Edit} {a : Address}
    {root root' : Element} (fresh : edit.Fresh) (all : root.toNode.Every p)
    (done : root.editAt? a edit = some root') : root'.toNode.Every p := by
  rw [Element.editAt?] at done
  simp only [Option.bind_eq_bind, Option.bind_eq_some_iff] at done
  obtain ⟨e, found, e', applied, changed⟩ := done
  have inside : e.toNode.Every p := Element.every_below? all found
  obtain ⟨new, flagged⟩ := h.run? fresh inside applied
  exact (h.changeBelow? all found new flagged changed).1

/-- **A script** keeps what holds of all nodes.  By induction on its edits: each is made in a tree
    in which it holds again. -/
theorem Stable.edited? {p : Node → Prop} (h : Stable p) {script : Script} {root root' : Element}
    (fresh : ∀ s ∈ script, s.2.Fresh) (all : root.toNode.Every p)
    (done : root.edited? script = some root') : root'.toNode.Every p := by
  induction script generalizing root with
  | nil =>
    cases done
    exact all
  | cons s script ih =>
    obtain ⟨a, edit⟩ := s
    rw [List.forall_mem_cons] at fresh
    rw [Element.edited?, List.foldlM_cons] at done
    simp only [Option.bind_eq_bind, Option.bind_eq_some_iff] at done
    obtain ⟨root₁, first, rest⟩ := done
    exact ih fresh.2 (h.editAt? fresh.1 all first) rest

/-! ### Two of them -/

/-- Edits keep the names of attributes plain, and apart from each other. -/
theorem Tag.EditedTo.names {P : Text → Prop} {t t' : Tag} (edited : t.EditedTo t')
    (plain : ∀ name, isElementName name = true → P name)
    (names : ∀ name ∈ t.attributes.map (·.name), P name)
    (distinct : (t.attributes.map (·.name)).Nodup) :
    (∀ name ∈ t'.attributes.map (·.name), P name) ∧ (t'.attributes.map (·.name)).Nodup := by
  rcases edited.attributes with ⟨same, -⟩ | ⟨-, same | ⟨name, new_plain, new, more⟩⟩
  · rw [same]
    exact ⟨names, distinct⟩
  · rw [same]
    exact ⟨names, distinct⟩
  · rw [more]
    refine ⟨List.forall_mem_append.2 ⟨names, List.forall_mem_singleton.2 (plain _ new_plain)⟩, ?_⟩
    refine List.nodup_append.2 ⟨distinct, List.pairwise_singleton _ _, fun a mem b here => ?_⟩
    rw [List.mem_singleton.1 here]
    rintro rfl
    exact new mem

/-- A tag stays well named, since at most one name comes, and it is a new one. -/
theorem Tag.Named.edited {t t' : Tag} (h : t.Named) (edited : t.EditedTo t') : t'.Named := by
  have keys : ∀ name ∈ t.attributes.map (·.name), PlainName name := by
    intro name mem
    obtain ⟨a, here, rfl⟩ := List.mem_map.1 mem
    exact h.keys a here
  obtain ⟨names, distinct⟩ :=
    edited.names (fun _ plain => plainName_of_isElementName plain) keys h.distinct
  refine ⟨by rw [edited.name]; exact h.name, fun a here => ?_, distinct⟩
  exact names a.name (List.mem_map_of_mem here)

/-- A sound tag stays sound, since a start tag whose attributes changed is generated. -/
theorem Tag.Sound.edited {t t' : Tag} (h : t.Sound) (named : t.Named) (edited : t.EditedTo t') :
    t'.Sound := by
  rcases edited.attributes with ⟨attributes, unchanged⟩ | ⟨changed, -⟩
  · -- nothing but the flag of the children is left to differ
    have same : t' = { t with contentChanged := t'.contentChanged } := by
      obtain ⟨name', attributes', origin', content', tag'⟩ := t'
      obtain rfl : origin' = t.origin := edited.origin
      obtain rfl : name' = t.name := edited.name
      obtain rfl : attributes' = t.attributes := attributes
      obtain rfl : tag' = t.tagChanged := unchanged
      rfl
    rw [same]
    exact h.flagged _
  · exact h.changed (named.edited edited) changed edited.origin edited.name

/-- **Writable nodes stay writable**: a start tag whose attributes changed is generated, from a
    name and from keys that are names, each of them once. -/
theorem stable_writable : Stable Node.Writable where
  new n h := by
    cases n with
    | element tag children =>
      obtain ⟨none, name, attributes⟩ := h
      have named := attributes.named (plainName_of_isElementName name)
      exact ⟨named.sound none, named⟩
    | text raw =>
      obtain ⟨value, same⟩ := h
      obtain rfl := Node.text.inj same
      exact ⟨fun c mem => ne_mark_of_mem_escapeText mem, value, resolve_escapeText value⟩
    | comment raw =>
      obtain ⟨body, closed, same⟩ := h
      obtain rfl := Node.comment.inj same
      exact ⟨body, lexeme_comment (Text.endsFirst_iff.2 closed), rfl⟩
    | other markup => cases h
  edited own edited _ := by
    obtain ⟨sound, named⟩ := own
    exact ⟨sound.edited named edited, named.edited edited⟩

/-- **Grounded nodes stay grounded**: a tag that did not change is still where it was read, and an
    element in which something changed is not copied in one piece. -/
theorem stable_grounded (source : Text) : Stable (Node.GroundedIn source) where
  new n h := by
    -- a new element comes from no source, and nothing else is copied
    cases n with
    | element tag children => exact groundedIn_of_none h.1
    | _ => trivial
  edited own edited changed := groundedIn_of_changed own edited.origin changed

end Markup

end XmlGraft
