/-
  Routes — where a route leads, and what a change at its end changes.

  Following a route and changing the element it arrives at are two passes over a tree: the first
  finds the way and creates what is missing, the second goes down the way by indices.  For a proof
  one pass is better, with one case for a child that is found and one for a child that is created
  (`changeEnd`).  The two are shown to be equal, and what is proved about updates is proved along
  the one recursion.

  1. **Leading** (`Leads`): every step of the route finds a child.  The walk changes nothing then
     (`Leads.follow`), and trees that differ in their sources alone are walked alike
     (`Leads.of_bare`).

  2. **Changing the end** (`changeEnd`): the walk and a change where it arrives, in one recursion
     (`changeBelow?_follow`).  The depth that the walk carries is for its report, and does not bear
     on the way (`indices_depth`).

  3. **Where the tree changes** (`exists_stepped`): below one parent that was there before, in a
     child that was there too or in a new last child.  So an update is a change of one list of
     children, and the rest of the tree is context.

  4. **Created elements** (`Fresh`): where a step finds nothing in what the step before it creates,
     no element on the created way comes from the source (`not_located_of_created`).
-/
import XmlGraft.Edit.Route
import XmlGraft.Proofs.Edit.Values

namespace XmlGraft

open Markup

/-! ## Children and sources -/

namespace Markup.Element

/-- **A condition that does not look at sources** finds the same child in trees that differ in
    their sources alone, at the same index, and the two children again differ in nothing else. -/
theorem findChild?_of_bare {p : Element → Bool} (blind : ∀ e : Element, p e.bare = p e)
    {e e' c : Element} {i : Nat} (same : e'.bare = e.bare) (found : e.findChild? p = some (i, c)) :
    ∃ c', e'.findChild? p = some (i, c') ∧ c'.bare = c.bare := by
  obtain ⟨front, back, children, rfl, accepted, first⟩ := findChild?_eq_some_iff.1 found
  -- the children of the second tree, cut where those of the first are cut
  have all : e'.children.map Node.bare
      = front.map Node.bare ++ c.bare.toNode :: back.map Node.bare := by
    have := congrArg Element.children same
    simp only [Element.bare, bareAll_eq_map, children, List.map_append, List.map_cons] at this
    exact this
  obtain ⟨front', rest, children', before, behind⟩ := List.map_eq_append_iff.1 all
  obtain ⟨n, back', rfl, here, -⟩ := List.map_eq_cons_iff.1 behind
  have element := congrArg Node.element? here
  rw [Node.element?_bare, element?_toNode, Option.map_eq_some_iff] at element
  obtain ⟨c', element, bare⟩ := element
  obtain rfl := element?_eq_some_iff.1 element
  refine ⟨c', findChild?_eq_some_iff.2 ⟨front', back', children', ?_, ?_, fun x hx => ?_⟩, bare⟩
  · have := congrArg List.length before
    rw [List.length_map, List.length_map] at this
    exact this.symm
  · rw [← blind c', bare, blind c, accepted]
  · -- an element before the cut stands for one that was not accepted in the first tree
    have hx' : x.bare ∈ elements (bareAll front') := by
      rw [elements_bareAll]
      exact List.mem_map_of_mem hx
    rw [bareAll_eq_map, before, ← bareAll_eq_map, elements_bareAll] at hx'
    obtain ⟨y, hy, eq⟩ := List.mem_map.1 hx'
    rw [← blind x, ← eq, blind y, first y hy]

end Markup.Element

open Markup.Element

/-! ## Steps -/

namespace Step

theorem accepts_named (name : Text) (e : Element) : (named name).accepts e = (e.name == name) :=
  Bool.and_true _

/-- A step goes to elements of its name. -/
theorem name_of_accepts {s : Step} {e : Element} (h : s.accepts e = true) : e.name = s.name :=
  eq_of_beq (Bool.and_eq_true_iff.1 h).1

theorem create_named (name : Text) : (named name).create = Element.named name := rfl

/-- **A created element** has the name of the step and comes from no source; what its seed writes
    into it changes the children only. -/
theorem tag_create (s : Step) : s.create.name = s.name ∧ s.create.tag.origin = none := by
  rw [create]
  split
  · exact Fields.tag_writeAll _ _
  · exact ⟨rfl, rfl⟩

/-- It is legible when its name, and the names in the seed, are plain. -/
theorem legible_create {s : Step} (plain : PlainName s.name)
    (seeds : ∀ seed, s.seed = some seed → ∀ v ∈ seed.written, PlainName v.1) : s.create.Legible := by
  rw [create]
  split
  · next seed h => exact Fields.Legible.writeAll (Fields.legible_named plain) (seeds seed h)
  · exact Fields.legible_named plain

end Step

namespace Route

/-! ## Leading -/

/-- **A route leads from an element to one below it**: every step finds a child. -/
inductive Leads : Route → Element → List Nat → Element → Prop
  | here {e : Element} : Leads [] e [] e
  | down {s : Step} {route : Route} {e c t : Element} {i : Nat} {p : List Nat} :
      e.findChild? s.accepts = some (i, c) → Leads route c p t → Leads (s :: route) e (i :: p) t

/-- A route leads to an element that is below. -/
theorem Leads.below? {route : Route} {e t : Element} {p : List Nat} (h : Leads route e p t) :
    e.below? p = some t := by
  induction h with
  | here => rfl
  | down found _ ih =>
    obtain ⟨front, back, children, rfl, -, -⟩ := findChild?_eq_some_iff.1 found
    exact below?_cons.2 ⟨front, _, back, children, rfl, ih⟩

/-- **The walk along a route that leads somewhere** changes nothing and tells of nothing created;
    it arrives at the path that the route leads along. -/
theorem Leads.follow {route : Route} {e t : Element} {p : List Nat} (h : Leads route e p t)
    (depth : Nat) : Route.follow depth e route = (e, ⟨p, none, []⟩) := by
  induction h generalizing depth with
  | here => rfl
  | down found _ ih =>
    obtain ⟨front, back, children, rfl, -, -⟩ := findChild?_eq_some_iff.1 found
    rw [Route.follow, found]
    simp only [ih]
    -- the child is put back where it was taken from
    rw [putChild_eq children, ← children]

/-- **A route of two parts** leads by way of an element between them, which is where its first
    part leads.  The path is cut in two there as well. -/
theorem leads_append {r r' : Route} {e t : Element} {p : List Nat} :
    Leads (r ++ r') e p t ↔ ∃ q q' a, p = q ++ q' ∧ Leads r e q a ∧ Leads r' a q' t := by
  induction r generalizing e p with
  | nil =>
    constructor
    · exact fun h => ⟨[], p, e, rfl, .here, h⟩
    · rintro ⟨q, q', a, rfl, h, h'⟩
      cases h
      exact h'
  | cons s r ih =>
    constructor
    · intro h
      cases h with
      | down found more =>
        obtain ⟨q, q', a, rfl, h, h'⟩ := ih.1 more
        exact ⟨_, q', a, rfl, .down found h, h'⟩
    · rintro ⟨q, q', a, rfl, h, h'⟩
      cases h with
      | down found more => exact .down found (ih.2 ⟨_, q', a, rfl, more, h'⟩)

/-- The last step of a route goes to a child of the element that the steps before it lead to. -/
theorem Leads.last {root t : Element} {r : Route} {s : Step} {p : List Nat}
    (h : Leads (r ++ [s]) root p t) :
    ∃ q a front back, p = q ++ [List.length front] ∧ Leads r root q a ∧
      a.children = front ++ t.toNode :: back ∧ s.accepts t = true ∧
      ∀ x ∈ elements front, s.accepts x = false := by
  obtain ⟨q, q', a, rfl, way, last⟩ := leads_append.1 h
  cases last with
  | down found more =>
    cases more
    obtain ⟨front, back, children, rfl, accepted, first⟩ := findChild?_eq_some_iff.1 found
    exact ⟨q, a, front, back, rfl, way, children, accepted, first⟩

/-- **Trees that differ in their sources alone** are walked alike, if the steps do not look at
    sources.  So a route leads in a text that is read back where it led in the tree that was
    written. -/
theorem Leads.of_bare {route : Route} {e e' t : Element} {p : List Nat} (h : Leads route e p t)
    (blind : ∀ s ∈ route, ∀ x : Element, s.accepts x.bare = s.accepts x) (same : e'.bare = e.bare) :
    ∃ t', Leads route e' p t' ∧ t'.bare = t.bare := by
  induction h generalizing e' with
  | here => exact ⟨e', .here, same⟩
  | down found _ ih =>
    rw [List.forall_mem_cons] at blind
    obtain ⟨c', found', same'⟩ := findChild?_of_bare blind.1 same found
    obtain ⟨t', leads, end_⟩ := ih blind.2 same'
    exact ⟨t', .down found' leads, end_⟩

/-! ## Changing the end -/

/-- **The element with a change at the end of a route**, built where it does not exist. -/
def changeEnd (change : Element → Element) : Route → Element → Element
  | [], e => change e
  | s :: route, e =>
    match e.findChild? s.accepts with
    | some (i, c) => e.putChild i (changeEnd change route c)
    | none => e.append (changeEnd change route s.create).toNode

variable {f : Element → Element} {s : Step} {route : Route} {e c : Element} {i : Nat}

theorem changeEnd_of_some (found : e.findChild? s.accepts = some (i, c)) :
    changeEnd f (s :: route) e = e.putChild i (changeEnd f route c) := by
  rw [changeEnd, found]

theorem changeEnd_of_none (none : e.findChild? s.accepts = none) :
    changeEnd f (s :: route) e = e.append (changeEnd f route s.create).toNode := by
  rw [changeEnd, none]

/-- Into a child that is found, the way is its index and the rest of the way from there. -/
theorem indices_of_some (found : e.findChild? s.accepts = some (i, c)) (depth : Nat) :
    (follow depth e (s :: route)).2.indices = i :: (follow (depth + 1) c route).2.indices := by
  rw [follow, found]

/-- Into a created child, the way is the number of children before it and the rest of the way. -/
theorem indices_of_none (none : e.findChild? s.accepts = none) (depth : Nat) :
    (follow depth e (s :: route)).2.indices
      = e.children.length :: (follow (depth + 1) s.create route).2.indices := by
  rw [follow, none]

/-- The depth does not count for the way. -/
theorem indices_depth (route : Route) (e : Element) (depth depth' : Nat) :
    (follow depth e route).2.indices = (follow depth' e route).2.indices := by
  induction route generalizing e depth depth' with
  | nil => rfl
  | cons s route ih =>
    cases found : e.findChild? s.accepts with
    | some child => rw [indices_of_some found, indices_of_some found, ih]
    | none => rw [indices_of_none found, indices_of_none found, ih]

/-- A change at the end of two routes, one behind the other. -/
theorem changeEnd_append (f : Element → Element) (r r' : Route) (e : Element) :
    changeEnd f (r ++ r') e = changeEnd (changeEnd f r') r e := by
  induction r generalizing e with
  | nil => rfl
  | cons s r ih =>
    rw [List.cons_append, changeEnd, changeEnd]
    split <;> rw [ih]

/-- **The change at the end of a route is the change made where the walk arrives.**  The walk
    grows the tree first and the change is then made at an address; made on the way down, it needs
    no address. -/
theorem changeBelow?_follow (f : Element → Element) (depth : Nat) (e : Element) (route : Route) :
    (follow depth e route).1.changeBelow? f (follow depth e route).2.indices
      = some (changeEnd f route e) := by
  induction route generalizing depth e with
  | nil => rfl
  | cons s route ih =>
    cases found : e.findChild? s.accepts with
    | some child =>
      obtain ⟨i, c⟩ := child
      obtain ⟨front, back, children, rfl, -, -⟩ := findChild?_eq_some_iff.1 found
      rw [follow, changeEnd_of_some found, found]
      -- one level down on both sides; what is left is the walk in the child
      show (e.putChild front.length (follow (depth + 1) c route).1).changeBelow? f
        (front.length :: (follow (depth + 1) c route).2.indices) = _
      rw [putChild_eq children, putChild_eq children,
        changeBelow?_cons (e := ⟨e.tag, front ++ (follow (depth + 1) c route).1.toNode :: back⟩) rfl,
        ih]
      rfl
    | none =>
      rw [follow, changeEnd_of_none found, found]
      show (e.append (follow (depth + 1) s.create route).1.toNode).changeBelow? f
        (e.children.length :: (follow (depth + 1) s.create route).2.indices) = _
      have children : (e.append (follow (depth + 1) s.create route).1.toNode).children
          = e.children ++ (follow (depth + 1) s.create route).1.toNode :: [] := rfl
      rw [changeBelow?_cons children, ih]
      rfl

/-- A change further down does not change what the element is. -/
theorem tag_changeEnd (f : Element → Element) (s : Step) (route : Route) (e : Element) :
    (changeEnd f (s :: route) e).name = e.name ∧
      (changeEnd f (s :: route) e).tag.origin = e.tag.origin := by
  rw [changeEnd]
  split <;> exact ⟨rfl, rfl⟩

/-- **A change in the first child of a name**: that child is changed, or a created one if there is
    none, and the first children of other names are what they were. -/
theorem child?_changeEnd {f : Element → Element} (name_f : ∀ e, (f e).name = e.name) (e : Element)
    (name : Text) :
    (∃ c, (changeEnd f [.named name] e).child? name = some (f c)) ∧
      ∀ other, other ≠ name → (changeEnd f [.named name] e).child? other = e.child? other := by
  cases found : e.findChild? (Step.named name).accepts with
  | some child =>
    obtain ⟨i, c⟩ := child
    obtain ⟨front, back, children, rfl, accepted, first⟩ := findChild?_eq_some_iff.1 found
    have same : c.name = name := Step.name_of_accepts accepted
    rw [changeEnd_of_some found, putChild_eq children]
    refine ⟨⟨c, Fields.child?_of_first rfl ((name_f c).trans same) fun x hx => ?_⟩, fun other ne => ?_⟩
    · -- not accepted by a step that goes by name means another name
      have rejected := first x hx
      rw [Step.accepts_named] at rejected
      exact beq_eq_false_iff_ne.1 rejected
    · exact child?_replace children (name_f c) (by rw [same]; exact Ne.symm ne)
  | none =>
    have same : (f (Step.named name).create).name = name := name_f _
    rw [changeEnd_of_none found]
    refine ⟨⟨_, Fields.child?_of_first rfl same fun x hx => ?_⟩, fun other ne => ?_⟩
    · have rejected := findChild?_eq_none_iff.1 found x hx
      rw [Step.accepts_named] at rejected
      exact beq_eq_false_iff_ne.1 rejected
    · exact child?_append (by rw [changeEnd, same]; exact Ne.symm ne)

/-- The walk along two routes, one behind the other. -/
theorem indices_append {r r' : Route} {e a : Element} {depth : Nat}
    (there : (follow depth e r).1.below? (follow depth e r).2.indices = some a) (depth' : Nat) :
    (follow depth e (r ++ r')).2.indices
      = (follow depth e r).2.indices ++ (follow depth' a r').2.indices := by
  induction r generalizing e depth with
  | nil =>
    cases there
    exact indices_depth _ _ _ _
  | cons s r ih =>
    cases found : e.findChild? s.accepts with
    | some child =>
      obtain ⟨i, c⟩ := child
      obtain ⟨front, back, children, rfl, -, -⟩ := findChild?_eq_some_iff.1 found
      rw [follow, found] at there
      simp only at there
      -- the child at the first index is the one that the walk went to
      rw [putChild_eq children, below?_child rfl] at there
      rw [List.cons_append, indices_of_some found, indices_of_some found, ih there, List.cons_append]
    | none =>
      rw [follow, found] at there
      simp only at there
      have children : (e.append (follow (depth + 1) s.create r).1.toNode).children
          = e.children ++ (follow (depth + 1) s.create r).1.toNode :: [] := rfl
      rw [below?_child children] at there
      rw [List.cons_append, indices_of_none found, indices_of_none found, ih there, List.cons_append]

/-- **A legible tree stays legible** when the change keeps elements legible and what is created
    is.  A created child stands behind the others, where it separates nothing wrongly. -/
theorem legible_changeEnd (h : e.Legible) (creates : ∀ s ∈ route, s.create.Legible)
    (change : ∀ x : Element, x.Legible → (f x).Legible) : (changeEnd f route e).Legible := by
  induction route generalizing e with
  | nil => exact change e h
  | cons s route ih =>
    rw [List.forall_mem_cons] at creates
    cases found : e.findChild? s.accepts with
    | some child =>
      -- a child that is there, in whose place the changed one goes
      obtain ⟨i, c⟩ := child
      obtain ⟨front, back, children, rfl, -, -⟩ := findChild?_eq_some_iff.1 found
      rw [changeEnd_of_some found, putChild_eq children]
      obtain ⟨-, -, -, below⟩ := legible_iff.1 h
      exact Fields.Legible.replace h children (ih (below c.toNode (by rw [children]; simp)) creates.2)
    | none =>
      rw [changeEnd_of_none found]
      exact Fields.legible_append h (ih creates.1 creates.2)

/-! ## Where the tree changes -/

/-- **One step that changes a parent**, along a route: the first child that the step goes to is
    changed, which ends the route, or a new last child holds the rest of the route. -/
inductive Stepped (f : Element → Element) (s : Step) (a : Element) :
    Route → List Node → Element → List Node → Element → Prop
  | found {front back : List Node} {c : Element} : a.children = front ++ c.toNode :: back →
      s.accepts c = true → (∀ x ∈ elements front, s.accepts x = false) →
      Stepped f s a [] front (f c) back ⟨a.tag, front ++ (f c).toNode :: back⟩
  | created {rest : Route} : (∀ x ∈ elements a.children, s.accepts x = false) →
      Stepped f s a rest a.children (changeEnd f rest s.create) []
        (a.append (changeEnd f rest s.create).toNode)

/-- The changed child stands between the others. -/
theorem Stepped.children {a a' t : Element} {rest : Route} {front back : List Node}
    (h : Stepped f s a rest front t back a') : a'.children = front ++ t.toNode :: back := by
  cases h <;> rfl

theorem Stepped.tag {a a' t : Element} {rest : Route} {front back : List Node}
    (h : Stepped f s a rest front t back a') :
    a'.name = a.name ∧ a'.tag.origin = a.tag.origin ∧ a'.position? = a.position? := by
  cases h <;> exact ⟨rfl, rfl, rfl⟩

/-- No element before the changed child was accepted, in either case. -/
theorem Stepped.first {a a' t : Element} {rest : Route} {front back : List Node}
    (h : Stepped f s a rest front t back a') : ∀ x ∈ elements front, s.accepts x = false := by
  cases h with
  | found _ _ first => exact first
  | created none => exact none

/-- **A change at the end of a route changes one parent that was there before.**  The route leads
    to that parent as far as it can; the next step changes a child of it or adds one, and
    everything that is new is inside that child. -/
theorem exists_stepped (f : Element → Element) (s : Step) (route : Route) (root : Element)
    (depth : Nat) :
    ∃ (r : Route) (s' : Step) (rest : Route) (p : List Nat) (a : Element) (front : List Node)
      (t : Element) (back : List Node) (a' : Element),
      s :: route = r ++ s' :: rest ∧ Leads r root p a ∧ Stepped f s' a rest front t back a' ∧
      root.changeBelow? (fun _ => a') p = some (changeEnd f (s :: route) root) ∧
      (follow depth root (s :: route)).2.indices
        = p ++ front.length :: (follow (depth + p.length + 1) s'.create rest).2.indices := by
  induction route generalizing s root depth with
  | nil =>
    cases found : root.findChild? s.accepts with
    | some child =>
      obtain ⟨i, c⟩ := child
      obtain ⟨front, back, children, rfl, accepted, first⟩ := findChild?_eq_some_iff.1 found
      refine ⟨[], s, [], [], root, front, f c, back, _, rfl, .here,
        .found children accepted first, ?_, ?_⟩
      · rw [changeEnd_of_some found, putChild_eq children]
        rfl
      · rw [indices_of_some found]
        rfl
    | none =>
      refine ⟨[], s, [], [], root, _, _, [], _, rfl, .here,
        .created (findChild?_eq_none_iff.1 found), ?_, ?_⟩
      · rw [changeEnd_of_none found]
        rfl
      · rw [indices_of_none found]
        rfl
  | cons s₂ route ih =>
    cases found : root.findChild? s.accepts with
    -- the step goes on into a child that is there, where the rest of the way splits
    | some child =>
      obtain ⟨i, c⟩ := child
      obtain ⟨r, s', rest, p, a, front, t, back, a', whole, leads, stepped, changed, indices⟩ :=
        ih s₂ c (depth + 1)
      obtain ⟨before, behind, children, rfl, -, -⟩ := findChild?_eq_some_iff.1 found
      refine ⟨s :: r, s', rest, before.length :: p, a, front, t, back, a', by rw [whole]; rfl,
        .down found leads, stepped, ?_, ?_⟩
      · rw [changeBelow?_cons children, changed, changeEnd_of_some found, putChild_eq children]
        rfl
      · rw [indices_of_some found, indices, List.length_cons, List.cons_append,
          show depth + (p.length + 1) + 1 = depth + 1 + p.length + 1 by omega]
    | none =>
      -- the element itself gets a new child, which holds all of the rest
      refine ⟨[], s, s₂ :: route, [], root, _, _, [], _, rfl, .here,
        .created (findChild?_eq_none_iff.1 found), ?_, ?_⟩
      · rw [changeEnd_of_none found]
        rfl
      · rw [indices_of_none found]
        rfl

/-! ## Created elements -/

/-- **A step after which another one finds nothing** in what it creates. -/
def Fresh (s s' : Step) : Prop := ∀ x ∈ elements s.create.children, x.name ≠ s'.name

/-- What is asked of the name is enough, for a step accepts under its name only. -/
theorem findChild?_of_fresh {s s' : Step} (h : Fresh s s') : s.create.findChild? s'.accepts = none := by
  refine findChild?_eq_none_iff.2 fun x hx => ?_
  rw [Step.accepts, beq_eq_false_iff_ne.2 (h x hx), Bool.false_and]

theorem fresh_named (name : Text) (s : Step) : Fresh (.named name) s := fun _ hx => by cases hx

/-- **The elements on the way down a created element** come from no source.  Each step below finds
    nothing in what was just created, so it creates, and the walk never comes back to what was
    read. -/
theorem not_located_of_created (f : Element → Element) {s : Step} {rest : Route}
    (fresh : (s :: rest).IsChain Fresh) {depth j : Nat} {q q' : List Nat}
    (way : (follow depth s.create rest).2.indices = q ++ j :: q') :
    ((changeEnd f rest s.create).below? q).any (·.isLocated) = false := by
  induction rest generalizing s depth q with
  | nil => simp [follow] at way
  | cons s' rest ih =>
    obtain ⟨fresh_here, fresh⟩ := List.isChain_cons_cons.1 fresh
    have none := findChild?_of_fresh fresh_here
    rw [indices_of_none none] at way
    rw [changeEnd_of_none none]
    cases q with
    | nil =>
      have origin := s.tag_create.2
      simp [below?, isLocated, position?, append, editChildren, origin]
    | cons k q =>
      obtain ⟨rfl, more⟩ := List.cons.inj way
      have down : (s.create.append (changeEnd f rest s'.create).toNode).childAt? s.create.children.length
          = some (changeEnd f rest s'.create) :=
        childAt?_eq_some_iff.2 ⟨s.create.children, [], rfl, rfl⟩
      rw [below?, down]
      exact ih fresh more

end Route

end XmlGraft
