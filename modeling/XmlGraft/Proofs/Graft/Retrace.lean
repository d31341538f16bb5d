/-
  Retrace — a route walked again in the text that its graft gave.

  After an update the tree is not the one that was walked: the target was changed, elements were
  created, and what changed was laid out and read back.  That the same route leads to the same place
  in it is shown for any steps that have the properties which are needed, so that it can be used for
  routes by name and for the search for a plugin alike.

  1. **Lasting changes** (`Lasting`): what such a change does to an element is still done when the
     element is laid out and read back.

  2. **Traceable routes** (`Traceable`): each step goes to the element it went to, or created, after
     the change below it.  A change below a step shows in children of one name, that of the next
     step.  A step that does not look at these is not led astray (`Steady`); only the last step has
     to look at the changed element itself (`Finds`).

  3. **The two parts of the way**: down to the parent that was there before, by induction on the way
     that led to it (`Leads.changed`), and from there on through what was created, by induction on
     the rest of the route (`leads_created`).

  4. **Retracing** (`exists_leads_of_graft`): in the text of the graft the route leads to an element
     in which the change is done.

  The two notions are made for each other.  A change is not asked to keep the children of an
  element, only its name and its origin; in return the steps of the route may not look at the
  children that the rest of the route changes.  A step by name looks at none, and so has every one
  of the properties.
-/
import XmlGraft.Proofs.Graft.Updates

namespace XmlGraft

open Markup

/-! ## Children of a laid element -/

namespace Graft

theorem name_laidElement (m : Margin) (depth : Nat) (e : Element) :
    (m.laidElement depth e).name = e.name := rfl

/-- The first child element of a name, when its parent is laid out. -/
theorem child?_laidElement (m : Margin) (depth : Nat) (e : Element) (name : Text) :
    (m.laidElement depth e).child? name = (e.child? name).map (m.laidElement (depth + 1)) := by
  rw [Element.child?_eq_find?, Element.child?_eq_find?, elements_laidElement, List.find?_map]
  rfl

/-- **A trimmed value that is held is held by the laid element.** -/
theorem keeps_laidElement {e : Element} {name value : Text} (h : e.Keeps name value)
    (trimmed : Text.trim value = value) (m : Margin) (depth : Nat) :
    (m.laidElement depth e).Keeps name value := by
  obtain ⟨c, found, holds⟩ := h
  exact ⟨_, by rw [child?_laidElement, found, Option.map_some], holds_laidElement m _ trimmed holds⟩

end Graft

namespace Markup.Element

/-- The first accepted one among the elements is the first accepted child. -/
theorem exists_findChild? {e c : Element} {p : Element → Bool} {before behind : List Element}
    (children : elements e.children = before ++ c :: behind) (first : ∀ x ∈ before, p x = false)
    (accepted : p c = true) : ∃ i, e.findChild? p = some (i, c) := by
  have found : (e.findChild? p).map (·.2) = some c := by
    rw [map_findChild?, children, List.find?_append, List.find?_eq_none.2 fun x hx => by
      rw [first x hx]; exact Bool.false_ne_true, Option.none_or, List.find?_cons_of_pos accepted]
  obtain ⟨⟨i, c'⟩, here, rfl⟩ := Option.map_eq_some_iff.1 found
  exact ⟨i, here⟩

/-- Children of other names stay the first of their names. -/
theorem child?_of_elements {a b : Element} (before now behind : List Element) {name : Text}
    (old : ∃ was, elements a.children = before ++ was ++ behind ∧ ∀ x ∈ was, x.name ≠ name)
    (new : elements b.children = before ++ now ++ behind) (others : ∀ x ∈ now, x.name ≠ name) :
    b.child? name = a.child? name := by
  -- the two lists differ in a part that has none of the name
  obtain ⟨was, old, others'⟩ := old
  have none (es : List Element) (h : ∀ x ∈ es, x.name ≠ name) : es.find? (·.name == name) = none :=
    List.find?_eq_none.2 fun x hx => by simpa using h x hx
  rw [child?_eq_find?, child?_eq_find?, old, new]
  simp only [List.find?_append, none was others', none now others]

end Markup.Element

namespace Route

open Graft Markup.Element

/-! ## Traceable routes -/

/-- **A lasting change**: what it does is done, whatever the element, and stays done when the element
    is laid out and read back. -/
structure Lasting (f : Element → Element) (Done : Element → Prop) : Prop where
  done : ∀ e, Done (f e)
  tag : ∀ e, (f e).name = e.name ∧ (f e).tag.origin = e.tag.origin
  legible : ∀ e : Element, e.Legible → (f e).Legible
  laid : ∀ e, Done e → ∀ (m : Margin) depth, Done (m.laidElement depth e)
  reread : ∀ e e' : Element, e'.bare = e.bare → Done e → Done e'

/-- **A steady step** is not led astray by the children of a name. -/
structure Steady (s : Step) (name : Text) : Prop where
  /-- They do not count for what it accepts. -/
  blind : ∀ e e' : Element, e'.name = e.name → (∀ m, m ≠ name → e'.child? m = e.child? m) →
    s.accepts e' = s.accepts e
  /-- It creates none of them. -/
  fresh : ∀ x ∈ elements s.create.children, x.name ≠ name
  /-- It accepts what it created and what was put into that since, when it is laid out. -/
  sure : ∀ e : Element, e.name = s.name → (∀ m, m ≠ name → e.child? m = s.create.child? m) →
    ∀ (around : Margin) depth, s.accepts (around.laidElement depth e) = true

/-- **The last step finds the change**, wherever it was made. -/
structure Finds (s : Step) (f : Element → Element) : Prop where
  old : ∀ e, s.accepts e = true → f e = e ∨
    (s.accepts (f e) = true ∧
      ∀ (around : Margin) depth, s.accepts (around.laidElement depth (f e)) = true)
  new : ∀ (around : Margin) depth, s.accepts (around.laidElement depth (f s.create)) = true

/-- **A traceable route**: steady steps, the last of which finds the change. -/
structure Traceable (f : Element → Element) (route : Route) : Prop where
  steady : route.IsChain fun s s' => Steady s s'.name
  finds : ∀ s ∈ route.getLast?, Finds s f
  creates : ∀ s ∈ route, s.create.Legible
  reread : ∀ s ∈ route, ∀ e : Element, s.accepts e.bare = s.accepts e

/-- Steady steps find nothing in what the step before them creates. -/
theorem Steady.isChain_fresh {route : Route} (h : route.IsChain fun s s' => Steady s s'.name) :
    route.IsChain Fresh := h.imp fun _ _ steady => steady.fresh

variable {f : Element → Element} {Done : Element → Prop}

/-! ## Created elements -/

/-- **A created element, laid out, leads on to the change**, and its step accepts it. -/
theorem leads_created (lasting : Lasting f Done) (around : Margin) {s : Step} {rest : Route}
    (steady : (s :: rest).IsChain fun s s' => Steady s s'.name)
    (finds : ∀ x ∈ (s :: rest).getLast?, Finds x f) (depth : Nat) :
    s.accepts (around.laidElement depth (changeEnd f rest s.create)) = true ∧
      ∃ q t, Leads rest (around.laidElement depth (changeEnd f rest s.create)) q t ∧ Done t := by
  induction rest generalizing s depth with
  | nil =>
    exact ⟨(finds s rfl).new around depth, [], _, .here,
      lasting.laid _ (lasting.done _) around depth⟩
  | cons s' rest ih =>
    obtain ⟨here, more⟩ := List.isChain_cons_cons.1 steady
    obtain ⟨accepted, q, t, leads, done⟩ := ih more finds (depth + 1)
    have name : (changeEnd f rest s'.create).name = s'.name := by
      rw [← name_laidElement around (depth + 1)]
      exact Step.name_of_accepts accepted
    -- what the next step creates is the last child; the step's own children are not of its name
    rw [changeEnd_of_none (findChild?_of_fresh here.fresh)]
    constructor
    · -- what was put into the created element has the name of the next step
      refine here.sure (s.create.append (changeEnd f rest s'.create).toNode) s.tag_create.1
        (fun m other => ?_) around depth
      exact child?_append (by rw [name]; exact Ne.symm other)
    · have children : elements (around.laidElement depth
          (s.create.append (changeEnd f rest s'.create).toNode)).children
          = (elements s.create.children).map (around.laidElement (depth + 1))
            ++ [around.laidElement (depth + 1) (changeEnd f rest s'.create)] := by
        rw [elements_laidElement, append, editChildren]
        simp only [elements_append, elements_toNode, elements_nil, List.map_append, List.map_cons,
          List.map_nil]
      have rejected : ∀ x ∈ (elements s.create.children).map (around.laidElement (depth + 1)),
          s'.accepts x = false := by
        intro x hx
        obtain ⟨y, hy, rfl⟩ := List.mem_map.1 hx
        rw [Step.accepts, name_laidElement, beq_eq_false_iff_ne.2 (here.fresh y hy), Bool.false_and]
      obtain ⟨i, found⟩ := exists_findChild? children rejected accepted
      exact ⟨i :: q, t, .down found leads, done⟩

/-! ## The way to the parent -/

/-- **A steady route leads to a parent whose child was changed**, as it led to it before. -/
theorem Leads.changed {r : Route} {e e' a b : Element} {p : List Nat} (h : Leads r e p a)
    (changed : e.changeBelow? (fun _ => b) p = some e') {s : Step}
    (steady : (r ++ [s]).IsChain fun s s' => Steady s s'.name) (name : b.name = a.name)
    (others : ∀ m, m ≠ s.name → b.child? m = a.child? m) :
    Leads r e' p b ∧ e'.name = e.name ∧
      ∀ m, (∀ s' ∈ (r ++ [s]).head?, m ≠ s'.name) → e'.child? m = e.child? m := by
  induction h generalizing e' with
  | here =>
    cases changed
    exact ⟨.here, name, fun m other => others m (other s rfl)⟩
  | @down s₁ route e c t i p found _ ih =>
    obtain ⟨front, back, children, rfl, accepted, first⟩ := findChild?_eq_some_iff.1 found
    rw [changeBelow?_cons children, Option.map_eq_some_iff] at changed
    obtain ⟨c', changed, rfl⟩ := changed
    rw [List.cons_append] at steady
    obtain ⟨leads, same, others'⟩ := ih changed steady.tail name others
    -- the step looks at no child of the name that the route goes on with, and no other one changed
    have accepts : s₁.accepts c' = s₁.accepts c := by
      cases hr : route ++ [s] with
      | nil => simp at hr
      | cons s₂ more =>
        rw [hr] at steady others'
        refine (List.isChain_cons_cons.1 steady).1.blind c c' same fun m other => ?_
        refine others' m fun s' hs' => ?_
        cases hs'
        exact other
    have found' : (⟨e.tag, front ++ c'.toNode :: back⟩ : Element).findChild? s₁.accepts
        = some (front.length, c') :=
      findChild?_eq_some_iff.2 ⟨front, back, rfl, rfl, accepts.trans accepted, first⟩
    refine ⟨.down found' leads, rfl, fun m other => ?_⟩
    exact child?_replace children same (by
      rw [Step.name_of_accepts accepted]
      exact Ne.symm (other s₁ rfl))

/-! ## Retracing -/

/-- A created element is not pristine. -/
theorem not_pristine_of_created (lasting : Lasting f Done) (s : Step) (rest : Route) :
    (changeEnd f rest s.create).isPristine = false := by
  have origin : (changeEnd f rest s.create).tag.origin = none := by
    cases rest with
    | nil => rw [changeEnd, (lasting.tag _).2, s.tag_create.2]
    | cons s' rest => rw [(tag_changeEnd f s' rest s.create).2, s.tag_create.2]
  rw [isPristine, toNode, Node.isPristine, Tag.isPristine, origin]
  rfl

section

variable {root edited root' a a' t : Element} {p : List Nat} {s : Step} {rest : Route}
  {front back : List Node} {o : Nat}

/-- **The parent in a regrafted tree**: in the place of the changed child stands a child that the step
    accepts, and from which the rest of the route leads to an element in which the change is done. -/
theorem exists_parent_regrafted (lasting : Lasting f Done)
    (steady : (s :: rest).IsChain fun s s' => Steady s s'.name)
    (finds : ∀ x ∈ (s :: rest).getLast?, Finds x f) (read : ReadAt o [a.toNode])
    (stepped : Stepped f s a rest front t back a')
    (changed : root.changeBelow? (fun _ => a') p = some edited)
    (regrafted : Regrafted edited p a' front t back root') :
    ∃ b t' : Element, root.changeBelow? (fun _ => b) p = some root' ∧ b.name = a'.name ∧
      elements b.children = elements front ++ t' :: elements back ∧ s.accepts t' = true ∧
      ∃ q t'', Leads rest t' q t'' ∧ Done t'' := by
  rcases regrafted with ⟨pristine, rfl⟩ | ⟨anew, around, -, regrafted⟩
  · -- nothing was laid out, so that the child was there before
    refine ⟨a', t, changed, rfl, by rw [stepped.children, elements_append, elements_toNode], ?_⟩
    cases stepped with
    | @found front back c children accepted first =>
      refine ⟨?_, [], _, .here, lasting.done c⟩
      rcases (finds s rfl).old c accepted with same | ⟨accepted', -⟩
      · rw [same, accepted]
      · exact accepted'
    -- a created element is never pristine
    | created none =>
      rw [not_pristine_of_created lasting] at pristine
      cases pristine
  · refine ⟨⟨a'.tag, regraft around front t back⟩, around.margin.laidElement 0 t, ?_, rfl,
      elements_regraft around front t back, ?_⟩
    · rw [changeBelow?_changeBelow? changed] at regrafted
      exact regrafted
    · cases stepped with
      | @found front back c children accepted first =>
        refine ⟨?_, [], _, .here, lasting.laid _ (lasting.done c) around.margin 0⟩
        rcases (finds s rfl).old c accepted with same | ⟨-, accepted'⟩
        · rw [same, read.isPristine_child children] at anew
          cases anew
        · exact accepted' around.margin 0
      | created none => exact leads_created lasting around.margin steady finds 0

/-- A step changes no child of another name. -/
theorem Stepped.child?_eq (stepped : Stepped f s a rest front t back a') {b t' : Element}
    (children : elements b.children = elements front ++ t' :: elements back)
    (accepted : s.accepts t' = true) (m : Text) (other : m ≠ s.name) : b.child? m = a.child? m := by
  have unseen (c : Element) (h : s.accepts c = true) : ∀ x ∈ [c], x.name ≠ m := fun x hx => by
    obtain rfl := List.mem_singleton.1 hx
    rw [Step.name_of_accepts h]
    exact Ne.symm other
  refine child?_of_elements (elements front) [t'] (elements back) ?_ (by rw [children]; simp)
    (unseen t' accepted)
  cases stepped with
  | @found front back c children' accepted' first =>
    exact ⟨[c], by rw [children', elements_append, elements_toNode]; simp, unseen c accepted'⟩
  | created none => exact ⟨[], by simp, by simp⟩

/-- **A regrafted tree keeps the way to the change**: to the parent, and one step on, to an element in
    which the change is done. -/
theorem exists_leads_regrafted (lasting : Lasting f Done) {r : Route}
    (traceable : Traceable f (r ++ s :: rest)) (read : ReadAt o [a.toNode]) (leads : Leads r root p a)
    (stepped : Stepped f s a rest front t back a')
    (changed : root.changeBelow? (fun _ => a') p = some edited)
    (regrafted : Regrafted edited p a' front t back root') :
    ∃ q t', Leads (r ++ s :: rest) root' q t' ∧ Done t' := by
  obtain ⟨-, steady, -⟩ := List.isChain_append.1 traceable.steady
  have finds : ∀ x ∈ (s :: rest).getLast?, Finds x f := fun x hx => by
    refine traceable.finds x ?_
    rw [List.getLast?_append, hx]
    rfl
  obtain ⟨b, t', now, name, children, accepted, q, t'', below, done⟩ :=
    exists_parent_regrafted lasting steady finds read stepped changed regrafted
  have chain : (r ++ [s] ++ rest).IsChain fun s s' => Steady s s'.name := by
    simpa using traceable.steady
  obtain ⟨way, -, -⟩ := leads.changed now chain.left_of_append (name.trans stepped.tag.1)
    (stepped.child?_eq children accepted)
  obtain ⟨i, found⟩ := exists_findChild? children stepped.first accepted
  exact ⟨_, t'', leads_append.2 ⟨p, i :: q, b, rfl, way, .down found below⟩, done⟩

end

/-- **Retracing**: in the text that the graft of a lasting change gives, a traceable route leads to an
    element in which the change is done. -/
theorem exists_leads_of_graft {text : Text} {d : Document} (read : d.Read text)
    (legible : d.root.Legible) (lasting : Lasting f Done) {route : Route} (some_step : route ≠ [])
    (traceable : Traceable f route) {s : Settings} {markers : Nat → Text} {g : Grafted}
    (done : graft { d with root := changeEnd f route d.root } ⟨(follow 0 d.root route).2.indices⟩ s
      markers = .ok g)
    (unmistakable : Unmistakable { d with root := changeEnd f route d.root }
      ⟨(follow 0 d.root route).2.indices⟩ markers) :
    ∃ d' q t, Document.parse g.text = .ok d' ∧ d'.Read g.text ∧ Leads route d'.root q t ∧ Done t := by
  cases route with
  | nil => exact absurd rfl some_step
  | cons s₁ route =>
    obtain ⟨r, s', rest, p, a, front, t, back, a', whole, leads, stepped, changed, site⟩ :=
      exists_site read f (Steady.isChain_fresh traceable.steady)
    have there := below?_of_changeBelow? leads.below? changed
    obtain ⟨root', d', regrafted, parsed, -, -, bare, one⟩ := parse_graft read
      (legible_changeEnd legible traceable.creates lasting.legible) done site there stepped.children
      unmistakable
    obtain ⟨o, here⟩ := read.below? leads.below?
    rw [whole] at traceable ⊢
    obtain ⟨q, t', leads', done'⟩ :=
      exists_leads_regrafted lasting traceable here leads stepped changed regrafted
    -- what was read differs from the regrafted tree in its sources alone
    obtain ⟨t'', again, same⟩ := leads'.of_bare traceable.reread bare
    exact ⟨d', q, t'', parsed, Document.read_of_parse one parsed, again, lasting.reread _ _ same done'⟩

end Route

end XmlGraft
