/-
  Walks — the walk along a route, in the tree that it changes on the way.

  `Route.follow` builds the elements anew on its way back up.  The walk here goes down only and
  changes the tree in place: each step looks at the tree that the steps before it left, so a step
  can go to an element that the seed of an earlier step brought along.  What is said of a walk is
  easier to see in this form, where every step has a tree before it and a tree after it.

  1. **A new last child** (`exists_below?_of_append`): what stood in the tree before still stands at
     its path, and is changed only where the new child hangs.

  2. **The walk in place** (`Walk.next`, `Walk.run`, `resolve`), which has a tree to show when it
     ends with a fault, too.

  3. **What a step does** (`Took`): it goes to the first child that it accepts, or to a new last
     one.

  4. **What any number of steps keeps** (`Reached`): of all that was built, one node hangs in the
     tree that was there before (`Grown`).  The first element that is created is hung there;
     whatever is created later is below it, so that later changes are changes of this one node
     (`Grown.exists_changed`).  This holds even where a later step goes to something that a seed
     brought along, for seeds are inside what was built.

  5. **Both walks are one** (`follow_eq_after`): by induction along the route, going into the child
     that is found, or into the one that was appended.

  6. **What comes of a walk** (`findOrCreate_resolves`): the faults, and otherwise a walk with as
     many steps as the route has.  What it tells at its end is computed from its steps
     (`created_of_steps`).
-/
import XmlGraft.Proofs.Edit.Provenance

namespace XmlGraft

open Markup

/-! ## A new last child -/

namespace Markup.Element

theorem below?_appended (e x : Element) (p : List Nat) :
    (e.append x.toNode).below? (e.children.length :: p) = x.below? p := by
  have children : (e.append x.toNode).children = e.children ++ x.toNode :: [] := rfl
  exact below?_child children p

/-- A change inside the new last child leaves the other children as they are. -/
theorem changeBelow?_appended (e x : Element) (f : Element → Element) (p : List Nat) :
    (e.append x.toNode).changeBelow? f (e.children.length :: p)
      = (x.changeBelow? f p).map fun x' => e.append x'.toNode := by
  have children : (e.append x.toNode).children = e.children ++ x.toNode :: [] := rfl
  rw [changeBelow?_cons children]
  rfl

theorem childAt?_putChild_ne {e c : Element} {i j : Nat} (ne : i ≠ j) :
    (e.putChild j c).childAt? i = e.childAt? i := by
  rw [childAt?, childAt?, putChild, List.getElem?_set_ne (Ne.symm ne)]

/-- **A new last child of the element at a path.**  That element gets the flag, those on the way to
    it hold it, and all others are what they were. -/
theorem exists_below?_of_append {e e' y : Element} {n : Node} {q p : List Nat}
    (changed : e.changeBelow? (·.append n) q = some e') (there : e.below? p = some y) :
    ∃ y', e'.below? p = some y' ∧
      y'.tag = (if p = q then { y.tag with contentChanged := true } else y.tag) ∧
      (¬ p <+: q → y' = y) := by
  induction q generalizing e e' p with
  | nil =>
    obtain rfl := Option.some.inj changed
    cases p with
    | nil =>
      obtain rfl := Option.some.inj there
      exact ⟨_, rfl, rfl, fun off => absurd List.nil_prefix off⟩
    | cons i p =>
      obtain ⟨front, c, back, children, rfl, below⟩ := below?_cons.1 there
      refine ⟨y, below?_cons.2 ⟨front, c, back ++ [n], ?_, rfl, below⟩, rfl, fun _ => rfl⟩
      show e.children ++ [n] = _
      rw [children, List.append_assoc, List.cons_append]
  | cons j q ih =>
    obtain ⟨front, c, back, c', children, rfl, inner, rfl⟩ := changeBelow?_eq_some.1 changed
    cases p with
    | nil =>
      obtain rfl := Option.some.inj there
      exact ⟨_, rfl, rfl, fun off => absurd List.nil_prefix off⟩
    | cons i p =>
      -- does the path go into the child that the change is in?
      by_cases same : i = front.length
      · subst same
        rw [below?_child children] at there
        obtain ⟨y', here, tag, off⟩ := ih inner there
        refine ⟨y', ?_, ?_, ?_⟩
        · rw [below?_child rfl]
          exact here
        · rw [tag]
          simp only [List.cons.injEq, true_and]
        · intro apart
          exact off fun onWay => apart (List.cons_prefix_cons.2 ⟨rfl, onWay⟩)
      · -- the way parts here, so the other child is seen alone
        refine ⟨y, ?_, ?_, fun _ => rfl⟩
        · rw [← putChild_eq children, below?, childAt?_putChild_ne same]
          exact there
        · rw [if_neg fun eq => same (List.cons.inj eq).1]

end Markup.Element

open Markup.Element

theorem Markup.Element.isLocated_of_built {x y : Element} (h : x.toNode.Built) (mem : y ∈ x.within) :
    y.isLocated = false := by
  rw [isLocated, position?, h y mem]
  rfl

namespace Route

/-! ## The walk in place -/

/-- **A walk under way**: the tree as it is by now, the address where the walk stands in it, and what
    was created so far. -/
structure Walk where
  root : Element
  address : Address
  createdFrom : Option Nat
  created : List Text

namespace Walk

/-- The walk before its first step. -/
def start (root : Element) (a : Address) : Walk := ⟨root, a, none, []⟩

/-- The element where the walk stands. -/
def here? (w : Walk) : Option Element := w.root.at? w.address

/-- The walk one step on, at a child. -/
def down (w : Walk) (i : Nat) : Walk := { w with address := w.address.child i }

/-- The walk one step on, at the last child that was created for the step in the tree `root`. -/
def downNew (w : Walk) (e : Element) (s : Step) (root : Element) : Walk where
  root := root
  address := w.address.child e.children.length
  createdFrom := w.createdFrom.or (some w.address.depth)
  created := w.created ++ [s.name]

/-- **One step** from the element where the walk stands: to the first child that the step accepts, or
    to a new last child. -/
def next (w : Walk) (e : Element) (s : Step) : Walk :=
  match e.findChild? s.accepts with
  | some (i, _) => w.down i
  | none => w.downNew e s ((w.root.changeAt? w.address (·.append s.create.toNode)).getD w.root)

/-- What the walk tells at its end. -/
def arrival (w : Walk) : Arrival := ⟨w.address, w.createdFrom, w.created⟩

/-- **The walk along a route**, with the tree that it leaves.  Where it finds no element it ends with a
    fault, and the tree stays as it is then. -/
def run (w : Walk) (route : Route) : Except TargetFault Arrival × Element :=
  match w.here? with
  | none => (.error (.nothingAt w.address), w.root)
  | some e =>
    match route with
    | [] => (.ok w.arrival, w.root)
    | s :: route => (w.next e s).run route

/-- The walk after one more step, if it stands somewhere. -/
def step (w : Walk) (s : Step) : Walk := w.here?.elim w fun e => w.next e s

/-- The walk after the steps of a route. -/
def after (w : Walk) (route : Route) : Walk := route.foldl step w

/-- Is there no child that a step accepts, where the walk stands? -/
def lacks (w : Walk) (s : Step) : Bool :=
  w.here?.all fun e => (elements e.children).all fun x => !s.accepts x

end Walk

/-- **Resolve a route from an address**: where it leads or what is wrong, and the tree afterwards. -/
def resolve (root : Element) (start : Address) (route : Route) :
    Except TargetFault Arrival × Element :=
  if route.isEmpty then (.error .noSteps, root) else (Walk.start root start).run route

/-! ## Steps -/

/-- **What one step does.** -/
inductive Took (s : Step) (w : Walk) : Walk → Prop
  /-- It goes to a child that it accepts, and accepts none before it. -/
  | found {e c : Element} {front back : List Node} : w.here? = some e →
      e.children = front ++ c.toNode :: back → s.accepts c = true →
      (∀ x ∈ elements front, s.accepts x = false) →
      w.root.at? (w.address.child front.length) = some c →
      Took s w (w.down front.length)
  /-- It accepts no child, and goes to a new last one: the element it creates, from no source. -/
  | created {e root : Element} : w.here? = some e →
      (∀ x ∈ elements e.children, s.accepts x = false) →
      w.root.changeAt? w.address (·.append s.create.toNode) = some root →
      root.at? (w.address.child e.children.length) = some s.create →
      s.create.name = s.name → s.create.isLocated = false → Took s w (w.downNew e s root)

variable {root e : Element} {start : Address} {w w' : Walk} {s : Step} {route : Route} {n : Nat}

theorem Took.here (h : Took s w w') : ∃ c, w'.here? = some c := by
  cases h with
  | @found e c front back _ _ _ _ there => exact ⟨c, there⟩
  | created _ _ _ there => exact ⟨_, there⟩

/-- **What a step adds to the report**: nothing where it finds a child; otherwise its name, and
    the depth if it is the first to find none. -/
theorem Took.lacks_eq (h : Took s w w') :
    (w'.created = w.created ++ if w.lacks s then [s.name] else []) ∧
      w'.createdFrom = w.createdFrom.or (if w.lacks s then some w.address.depth else none) := by
  cases h with
  | @found e c front back here children accepted _ _ =>
    have no : w.lacks s = false := by
      simp [Walk.lacks, here, children, elements_append, accepted]
    simp [no, Walk.down]
  | created here none _ _ _ _ =>
    have yes : w.lacks s = true := by
      rw [Walk.lacks, here, Option.all_some, List.all_eq_true]
      intro x hx
      rw [none x hx]
      rfl
    simp [yes, Walk.downNew]

/-- Where a child is found the walk goes down to it, and the tree stays. -/
theorem Walk.next_of_some {i : Nat} {c : Element} (here : w.here? = some e)
    (found : e.findChild? s.accepts = some (i, c)) :
    w.next e s = w.down i ∧ w.root.at? (w.address.child i) = some c := by
  constructor
  · rw [next, found]
  · obtain ⟨front, back, children, rfl, -, -⟩ := findChild?_eq_some_iff.1 found
    show w.root.below? (w.address.indices ++ [front.length]) = some c
    rw [below?_append, show w.root.below? w.address.indices = some e from here, Option.bind_some,
      below?_child children, below?]

/-- Where no child is found one is appended, and the walk goes down to it.  The change cannot
    fail, since the walk stands at an element. -/
theorem Walk.next_of_none (here : w.here? = some e) (none : e.findChild? s.accepts = none) :
    ∃ root, w.root.changeAt? w.address (·.append s.create.toNode) = some root ∧
      root.at? (w.address.child e.children.length) = some s.create ∧
      w.next e s = w.downNew e s root := by
  obtain ⟨root, changed⟩ := exists_changeBelow? here (·.append s.create.toNode)
  refine ⟨root, changed, ?_, ?_⟩
  · show root.below? (w.address.indices ++ [e.children.length]) = some s.create
    rw [below?_append, below?_of_changeBelow? here changed, Option.bind_some]
    exact below?_cons.2 ⟨e.children, s.create, [], rfl, rfl, rfl⟩
  · rw [next, none, changeAt?, changed, Option.getD_some]

/-- **The next step is one of the two that `Took` allows**: it goes down to the first child that
    it accepts and leaves the tree alone, or it appends a new child and goes down to that. -/
theorem took_next (here : w.here? = some e) (s : Step) : Took s w (w.next e s) := by
  cases found : e.findChild? s.accepts with
  | some child =>
    obtain ⟨next, there⟩ := Walk.next_of_some here found
    obtain ⟨front, back, children, index, accepted, first⟩ := findChild?_eq_some_iff.1 found
    rw [index] at next there
    rw [next]
    exact .found here children accepted first there
  | none =>
    obtain ⟨root, changed, there, next⟩ := Walk.next_of_none here found
    rw [next]
    exact .created here (findChild?_eq_none_iff.1 found) changed there s.tag_create.1
      (isLocated_of_built s.built_create s.create.mem_within_self)

theorem Walk.step_eq (here : w.here? = some e) (s : Step) : w.step s = w.next e s := by
  rw [step, here, Option.elim_some]

/-! ## What steps keep -/

/-- **What was built on a walk**: one new last child of an element that was there before, at a path,
    with all the rest inside it. -/
structure Grown (root : Element) (w : Walk) (q : List Nat) (parent x : Element) (rest : List Nat) :
    Prop where
  depth : w.createdFrom = some q.length
  way : w.address.indices = q ++ parent.children.length :: rest
  there : root.below? q = some parent
  tree : root.changeBelow? (·.append x.toNode) q = some w.root
  built : x.toNode.Built
  named : w.created.head? = some x.name

/-- **What a walk keeps** from its start to any of its steps. -/
structure Reached (root : Element) (start : Address) (n : Nat) (w : Walk) : Prop where
  here : ∃ e, w.here? = some e
  way : ∃ p, w.address.indices = start.indices ++ p ∧ p.length = n
  tree : (w.createdFrom = none ∧ w.created = [] ∧ w.root = root) ∨
    ∃ q parent x rest, start.depth ≤ q.length ∧ Grown root w q parent x rest

theorem reached_start (there : root.at? start = some e) :
    Reached root start 0 (Walk.start root start) :=
  ⟨⟨e, there⟩, ⟨[], (List.append_nil _).symm, rfl⟩, .inl ⟨rfl, rfl, rfl⟩⟩

/-- **A change where the walk stands**, inside what was built, is a change of what was built.
    Seen from the tree at the start, there is still one new child at one address, only with more
    in it. -/
theorem Grown.exists_changed {q rest : List Nat} {parent x root' : Element} {f : Element → Element}
    (h : Grown root w q parent x rest) (here : w.here? = some e) (retains : Retains e (f e))
    (name_f : (f e).name = e.name) (changed : w.root.changeAt? w.address f = some root') :
    ∃ x' : Element, x'.toNode.Built ∧ x'.name = x.name ∧
      root.changeBelow? (·.append x'.toNode) q = some root' := by
  -- the element where the walk stands is inside the new child
  have grown : w.root.below? q = some (parent.append x.toNode) := below?_of_changeBelow? h.there h.tree
  have inside : x.below? rest = some e := by
    have found : w.root.below? w.address.indices = some e := here
    rw [h.way, below?_append, grown, Option.bind_some] at found
    rw [← found]
    exact (below?_appended parent x rest).symm
  obtain ⟨x', inner⟩ := exists_changeBelow? inside f
  -- nothing that was read is in the new child, before or after
  have kept : Retains x x' := by
    refine retains.changeBelow? inside ?_
    rw [← inner]
    exact changeBelow?_congr inside rfl
  have named : x'.name = x.name := by
    cases rest with
    | nil =>
      cases inside
      cases inner
      exact name_f
    | cons i rest =>
      obtain ⟨front, c, back, c', -, -, -, rfl⟩ := changeBelow?_eq_some.1 inner
      rfl
  have whole : (parent.append x.toNode).changeBelow? f (parent.children.length :: rest)
      = some (parent.append x'.toNode) := by
    rw [changeBelow?_appended, inner]
    rfl
  refine ⟨x', kept.built h.built, named, ?_⟩
  rw [changeAt?, h.way, changeBelow?_append grown whole, changeBelow?_changeBelow? h.tree] at changed
  rw [← changed]
  exact changeBelow?_congr h.there rfl

/-- **A new child below what was built** is such a change, so however many elements a walk
    creates, they all hang on the first of them. -/
theorem Grown.created {q rest : List Nat} {parent x root' : Element}
    (h : Grown root w q parent x rest) (here : w.here? = some e)
    (changed : w.root.changeAt? w.address (·.append s.create.toNode) = some root') :
    ∃ x', Grown root (w.downNew e s root') q parent x' (rest ++ [e.children.length]) := by
  obtain ⟨x', built, named, tree⟩ :=
    h.exists_changed here (retains_append s.built_create e) rfl changed
  refine ⟨x', ?_, ?_, h.there, tree, built, ?_⟩
  · show w.createdFrom.or _ = _
    rw [h.depth, Option.some_or]
  · show w.address.indices ++ [e.children.length] = _
    rw [h.way, List.append_assoc, List.cons_append]
  · rw [named, ← h.named]
    show (w.created ++ [s.name]).head? = w.created.head?
    rw [List.head?_append, h.named, Option.some_or]

/-- **One step keeps what a walk keeps**: the walk stands at an element, and the tree is the one
    at the start, or that with one built child added on the way. -/
theorem Reached.next (h : Reached root start n w) (took : Took s w w') :
    Reached root start (n + 1) w' := by
  have here := took.here
  obtain ⟨p, way, length⟩ := h.way
  cases took with
  | @found e c front back _ _ _ _ there =>
    refine ⟨here, ⟨p ++ [front.length], ?_, ?_⟩, ?_⟩
    · show w.address.indices ++ [front.length] = _
      rw [way, List.append_assoc]
    · rw [List.length_append, length, List.length_singleton]
    · rcases h.tree with same | ⟨q, parent, x, rest, le, grown⟩
      · exact .inl same
      · refine .inr ⟨q, parent, x, rest ++ [front.length], le, grown.depth, ?_, grown.there, grown.tree,
          grown.built, grown.named⟩
        show w.address.indices ++ [front.length] = _
        rw [grown.way, List.append_assoc, List.cons_append]
  -- the step builds: for the first time, or again inside what was built
  | @created e root' stood _ changed _ _ _ =>
    refine ⟨here, ⟨p ++ [e.children.length], ?_, ?_⟩, .inr ?_⟩
    · show w.address.indices ++ [e.children.length] = _
      rw [way, List.append_assoc]
    · rw [List.length_append, length, List.length_singleton]
    · rcases h.tree with ⟨nowhere, nothing, same⟩ | ⟨q, parent, x, rest, le, grown⟩
      · -- the first element that is created hangs where the walk stands
        have stands : root.below? w.address.indices = some e := by
          rw [← same]
          exact stood
        refine ⟨w.address.indices, e, s.create, [], ?_, ?_, rfl, stands, ?_, s.built_create, ?_⟩
        · rw [way, List.length_append, Address.depth]
          omega
        · show w.createdFrom.or _ = _
          rw [nowhere, Option.none_or]
          rfl
        · rw [← same]
          exact changed
        · show (w.created ++ [s.name]).head? = _
          rw [nothing]
          exact congrArg some s.tag_create.1.symm
      · obtain ⟨x', grown'⟩ := grown.created stood changed
        exact ⟨q, parent, x', rest ++ [e.children.length], le, grown'⟩

/-- **Any number of steps keeps what a walk keeps.**  By induction on the route, from the end at
    which the next step is taken. -/
theorem Reached.after (h : Reached root start n w) (route : Route) :
    Reached root start (n + route.length) (w.after route) := by
  induction route generalizing w n with
  | nil => exact h
  | cons s route ih =>
    obtain ⟨e, here⟩ := h.here
    have first := h.next (took_next here s)
    have rest := ih first
    rw [Walk.after, List.foldl_cons, Walk.step_eq here, List.length_cons,
      show n + (route.length + 1) = n + 1 + route.length by omega]
    exact rest

/-! ## Both walks are one -/

/-- **The walk in place ends where the walk below an element ends**, and leaves the same tree.
    One is a loop that changes the whole tree at an address in each step, the other a recursion
    that puts a grown child back; after each step they agree on the tree, the address and the
    report. -/
theorem follow_eq_after (here : w.here? = some e) (route : Route) :
    w.root.changeAt? w.address (fun _ => (follow w.address.depth e route).1)
        = some (w.after route).root ∧
      (w.after route).arrival
        = ⟨⟨w.address.indices ++ (follow w.address.depth e route).2.indices⟩,
          w.createdFrom.or (follow w.address.depth e route).2.createdFrom,
          w.created ++ (follow w.address.depth e route).2.created⟩ := by
  induction route generalizing w e with
  | nil =>
    refine ⟨changeBelow?_of_fixed here rfl, ?_⟩
    simp [follow, Walk.after, Walk.arrival]
  | cons s route ih =>
    have stands : w.root.below? w.address.indices = some e := here
    rw [Walk.after, List.foldl_cons, Walk.step_eq here]
    show _ = some ((w.next e s).after route).root ∧ ((w.next e s).after route).arrival = _
    cases found : e.findChild? s.accepts with
    | some child =>
      obtain ⟨i, c⟩ := child
      obtain ⟨next, there⟩ := Walk.next_of_some here found
      obtain ⟨tree, arrival⟩ := ih (w := w.down i) there
      have deeper : (w.down i).address.depth = w.address.depth + 1 := List.length_append
      rw [deeper] at tree arrival
      rw [next, follow, found]
      constructor
      · rw [← tree]
        obtain ⟨front, back, children, rfl, -, -⟩ := findChild?_eq_some_iff.1 found
        -- below the child, and then below the element that holds it
        refine (changeBelow?_append stands ?_).symm
        rw [changeBelow?_cons children]
        exact congrArg some (putChild_eq children _).symm
      · rw [arrival]
        simp [Walk.down, Address.child]
    | none =>
      obtain ⟨root, changed, there, next⟩ := Walk.next_of_none here found
      rw [next]
      obtain ⟨tree, arrival⟩ := ih (w := w.downNew e s root) there
      have deeper : (w.downNew e s root).address.depth = w.address.depth + 1 := List.length_append
      rw [deeper] at tree arrival
      rw [follow, found]
      constructor
      · rw [← tree]
        -- the created element, and what the walk then does to it, are one new child
        have last : (e.append s.create.toNode).changeBelow?
            (fun _ => (follow (w.address.depth + 1) s.create route).1) [e.children.length]
            = some (e.append (follow (w.address.depth + 1) s.create route).1.toNode) := by
          rw [changeBelow?_appended]
          rfl
        have parent := below?_of_changeBelow? stands changed
        exact ((changeBelow?_append parent last).trans (changeBelow?_changeBelow? changed _)).symm
      · rw [arrival]
        simp [Walk.downNew, Address.child]

/-- **A walk that starts at an element does not stop on the way**, for each step leaves it at
    another one. -/
theorem Walk.run_eq (here : w.here? = some e) (route : Route) :
    w.run route = (.ok (w.after route).arrival, (w.after route).root) := by
  induction route generalizing w e with
  | nil =>
    rw [run.eq_def, here]
    rfl
  | cons s route ih =>
    obtain ⟨c, there⟩ := (took_next here s).here
    rw [run.eq_def, here, after, List.foldl_cons, step_eq here]
    exact ih there

/-- A route with steps, from an element, is resolved to where its steps lead. -/
theorem resolve_eq_after (there : root.at? start = some e) (some_step : route ≠ []) :
    resolve root start route = (.ok ((Walk.start root start).after route).arrival,
      ((Walk.start root start).after route).root) := by
  rw [resolve, if_neg (by simpa using some_step)]
  exact Walk.run_eq (w := Walk.start root start) there route

/-- **A walk that stands nowhere** ends with the fault that names its address, and leaves the tree
    as it is.  Only the start can be such a place, since each step leads to an element. -/
theorem run_of_none (nowhere : w.here? = none) (route : Route) :
    w.run route = (.error (.nothingAt w.address), w.root) := by
  rw [Walk.run.eq_def, nowhere]

/-- **The walk from an address and the walk in place** come to the same, in success and in
    failure.  So what is shown of the steps holds of the function that all updates call. -/
theorem findOrCreate_eq_resolve (root : Element) (start : Address) (route : Route) :
    findOrCreate root start route
      = (resolve root start route).1.map fun arrival => ((resolve root start route).2, arrival) := by
  rw [findOrCreate, resolve]
  split
  · rfl
  · cases there : root.at? start with
    | none =>
      rw [run_of_none (w := Walk.start root start) there]
      rfl
    | some e =>
      obtain ⟨tree, arrival⟩ := follow_eq_after (w := Walk.start root start) there route
      rw [Walk.run_eq (w := Walk.start root start) there]
      simp only [Walk.start, List.nil_append, Option.none_or] at tree arrival ⊢
      simp only [tree, Except.map, arrival]

/-- From an element, the walk below it and the steps in place give the same tree and the same
    report. -/
theorem findOrCreate_eq_after (there : root.at? start = some e) (some_step : route ≠ []) :
    findOrCreate root start route = .ok (((Walk.start root start).after route).root,
      ((Walk.start root start).after route).arrival) := by
  rw [findOrCreate_eq_resolve, resolve_eq_after there some_step]
  rfl

/-! ## Resolving -/

/-- Where the outermost created element hangs. -/
def Walk.builtAt? (w : Walk) : Option Address := w.createdFrom.map w.address.truncated

/-- **A route resolved**: the walk after each number of steps, and what it comes to in the end. -/
structure Resolved (root : Element) (start : Address) (route : Route) (w : Nat → Walk) (last : Walk) :
    Prop where
  begins : w 0 = Walk.start root start
  steps : ∀ k s, route[k]? = some s → Took s (w k) (w (k + 1))
  ends : w route.length = last
  /-- One index is added for each step. -/
  way : ∃ p, last.address.indices = start.indices ++ p ∧ p.length = route.length
  /-- The names of the steps that found no child, in their order. -/
  created : last.created = (route.zipIdx.filter fun (s, k) => (w k).lacks s).map (·.1.name)
  /-- The depth at which the first of them was taken. -/
  createdFrom : last.createdFrom
    = (route.zipIdx.find? fun (s, k) => (w k).lacks s).map (start.depth + ·.2)
  /-- From there on no element of the way has a place in a source. -/
  unlocated : ∀ depth, last.createdFrom = some depth → ∀ k, depth < k → k ≤ last.address.depth →
    ∃ y, last.root.at? (last.address.truncated k) = some y ∧ y.isLocated = false
  unchanged : last.createdFrom = none → last.root = root
  /-- What was created is one new last child of an element that was there before. -/
  grown : ∀ a, last.builtAt? = some a → start.depth ≤ a.depth ∧
    ∃ x : Element, x.toNode.Built ∧ root.changeAt? a (·.append x.toNode) = some last.root
  /-- What stood in the tree stands at its address; that one element is flagged, and nothing changes
      but above it. -/
  kept : ∀ a y, root.at? a = some y → ∃ y', last.root.at? a = some y' ∧
    y'.tag = (if last.builtAt? = some a then { y.tag with contentChanged := true } else y.tag) ∧
    ((∀ b, last.builtAt? = some b → ¬ a.indices <+: b.indices) → y' = y)

/-- The names and the depth that a walk tells, after each number of steps. -/
theorem created_of_steps {w : Nat → Walk} (begins : w 0 = Walk.start root start)
    (steps : ∀ k s, route[k]? = some s → Took s (w k) (w (k + 1)))
    (depth : ∀ k ≤ route.length, (w k).address.depth = start.depth + k) (k : Nat)
    (le : k ≤ route.length) :
    (w k).created = ((route.take k).zipIdx.filter fun (s, k) => (w k).lacks s).map (·.1.name) ∧
      (w k).createdFrom
        = ((route.take k).zipIdx.find? fun (s, k) => (w k).lacks s).map (start.depth + ·.2) := by
  induction k with
  | zero =>
    rw [begins]
    exact ⟨rfl, rfl⟩
  | succ k ih =>
    obtain ⟨created, createdFrom⟩ := ih (by omega)
    have lt : k < route.length := by omega
    have at_ : route[k]? = some route[k] := List.getElem?_eq_getElem lt
    obtain ⟨names, from_⟩ := (steps k _ at_).lacks_eq
    -- the steps so far, and one more with its number
    have more : (route.take (k + 1)).zipIdx = (route.take k).zipIdx ++ [(route[k], k)] := by
      rw [List.take_add_one, at_, Option.toList_some, List.zipIdx_append, List.length_take]
      simp [Nat.min_eq_left (Nat.le_of_lt lt)]
    rw [names, from_, created, createdFrom, more, depth k (by omega), List.filter_append,
      List.map_append, List.find?_append, Option.map_or]
    cases lacks : (w k).lacks route[k] <;> simp [lacks]

/-- What was built, by the address where it hangs. -/
theorem Grown.builtAt? {q rest : List Nat} {parent x : Element} (h : Grown root w q parent x rest) :
    w.builtAt? = some ⟨q⟩ := by
  rw [Walk.builtAt?, h.depth, Option.map_some, Address.truncated, h.way, List.take_left']
  rfl

/-- **From the first created element on** no element on the way has a position: each is inside
    what was built. -/
theorem Grown.exists_unlocated {q rest : List Nat} {parent x : Element}
    (h : Grown root w q parent x rest) (here : w.here? = some e) {k : Nat} (lt : q.length < k) :
    ∃ y, w.root.at? (w.address.truncated k) = some y ∧ y.isLocated = false := by
  have cut : (w.address.truncated k).indices
      = q ++ parent.children.length :: rest.take (k - q.length - 1) := by
    rw [Address.truncated, h.way, List.take_append, List.take_of_length_le (by omega),
      show k - q.length = k - q.length - 1 + 1 by omega, List.take_succ_cons]
    rfl
  have inside (p : List Nat) : w.root.below? (q ++ parent.children.length :: p) = x.below? p := by
    rw [below?_append, below?_of_changeBelow? h.there h.tree, Option.bind_some]
    exact below?_appended parent x p
  have whole : x.below? rest = some e := by
    rw [← inside, ← h.way]
    exact here
  rw [← List.take_append_drop (k - q.length - 1) rest, below?_append, Option.bind_eq_some_iff] at whole
  obtain ⟨y, there, -⟩ := whole
  refine ⟨y, ?_, isLocated_of_built h.built (mem_within_of_below? there)⟩
  rw [at?, cut, inside]
  exact there

/-- **What was created on a walk**, by what the walk tells of it.  With no depth told the tree is
    as it was; with one, the elements below that depth on the way come from no source, and all
    that is new hangs at one address, not above the start. -/
theorem Reached.created (h : Reached root start n w) :
    (w.createdFrom = none → w.root = root) ∧
      (∀ depth, w.createdFrom = some depth → ∀ k, depth < k → k ≤ w.address.depth →
        ∃ y, w.root.at? (w.address.truncated k) = some y ∧ y.isLocated = false) ∧
      ∀ a, w.builtAt? = some a → start.depth ≤ a.depth ∧
        ∃ x : Element, x.toNode.Built ∧ root.changeAt? a (·.append x.toNode) = some w.root := by
  obtain ⟨e, here⟩ := h.here
  rcases h.tree with ⟨nowhere, -, same⟩ | ⟨q, parent, x, rest, le, grown⟩
  · rw [Walk.builtAt?, nowhere]
    exact ⟨fun _ => same, nofun, nofun⟩
  · rw [grown.builtAt?, grown.depth]
    refine ⟨nofun, ?_, ?_⟩
    · intro depth eq k lt _
      obtain rfl := Option.some.inj eq
      exact grown.exists_unlocated here lt
    · intro a eq
      obtain rfl := Option.some.inj eq
      exact ⟨le, x, grown.built, grown.tree⟩

/-- **What stood in the tree** stands at its address after any number of steps, with its tag; only
    the element that got the new child has the flag of its children raised, and what is not on the
    way to the new child is the same as a whole. -/
theorem Reached.kept (h : Reached root start n w) {a : Address} {y : Element}
    (there : root.at? a = some y) : ∃ y', w.root.at? a = some y' ∧
      y'.tag = (if w.builtAt? = some a then { y.tag with contentChanged := true } else y.tag) ∧
      ((∀ b, w.builtAt? = some b → ¬ a.indices <+: b.indices) → y' = y) := by
  rcases h.tree with ⟨nowhere, -, same⟩ | ⟨q, parent, x, rest, -, grown⟩
  · rw [Walk.builtAt?, nowhere, same]
    exact ⟨y, there, rfl, fun _ => rfl⟩
  · -- one node was appended to the tree, so what stood there is followed through that one change
    obtain ⟨y', here, tag, off⟩ := exists_below?_of_append grown.tree there
    rw [grown.builtAt?]
    refine ⟨y', here, ?_, fun apart => off (apart _ rfl)⟩
    rw [tag]
    by_cases eq : a.indices = q
    · rw [if_pos eq, if_pos (congrArg (fun p => some (Address.mk p)) eq.symm)]
    · rw [if_neg eq, if_neg fun same => eq (congrArg Address.indices (Option.some.inj same)).symm]

/-- **A walk from an element**, with the walk after each number of steps named.  What holds of any
    number of steps is then taken at the last one. -/
theorem exists_resolved (there : root.at? start = some e) (some_step : route ≠ []) :
    ∃ w last, resolve root start route = (.ok last.arrival, last.root) ∧
      Resolved root start route w last := by
  let w (k : Nat) : Walk := (Walk.start root start).after (route.take k)
  have reached (k : Nat) (le : k ≤ route.length) : Reached root start k (w k) := by
    have h := (reached_start there).after (route.take k)
    rwa [Nat.zero_add, List.length_take, Nat.min_eq_left le] at h
  have steps (k : Nat) (s : Step) (at_ : route[k]? = some s) : Took s (w k) (w (k + 1)) := by
    obtain ⟨lt, -⟩ := List.getElem?_eq_some_iff.1 at_
    obtain ⟨c, here⟩ := (reached k (Nat.le_of_lt lt)).here
    have next : w (k + 1) = (w k).step s := by
      show Walk.after _ (route.take (k + 1)) = _
      rw [List.take_add_one, at_, Option.toList_some, Walk.after, List.foldl_concat]
      rfl
    rw [next, Walk.step_eq here]
    exact took_next here s
  have depth (k : Nat) (le : k ≤ route.length) : (w k).address.depth = start.depth + k := by
    obtain ⟨p, way, length⟩ := (reached k le).way
    rw [Address.depth, way, List.length_append, length, Address.depth]
  have whole := reached route.length (Nat.le_refl _)
  obtain ⟨created, createdFrom⟩ := created_of_steps rfl steps depth route.length (Nat.le_refl _)
  rw [List.take_length] at created createdFrom
  obtain ⟨unchanged, unlocated, grown⟩ := whole.created
  refine ⟨w, w route.length, ?_, ?_⟩
  · rw [resolve_eq_after there some_step]
    show _ = ((.ok (Walk.after _ (route.take route.length)).arrival :
      Except TargetFault Arrival), (Walk.after _ (route.take route.length)).root)
    rw [List.take_length]
  · exact ⟨rfl, steps, rfl, whole.way, created, createdFrom, unlocated, unchanged, grown,
      fun a y here => whole.kept here⟩

/-- **Resolving a route.**  Without steps, or from no element, it is a fault and the tree stays as it
    is.  Else it is a walk of that many steps, each to the first child that it accepts or to a new last
    one, which adds at most one node to the tree that was there. -/
theorem findOrCreate_resolves (root : Element) (start : Address) (route : Route) :
    findOrCreate root start route
        = (resolve root start route).1.map (fun arrival => ((resolve root start route).2, arrival)) ∧
      ((route = [] ∧ resolve root start route = (.error .noSteps, root)) ∨
        (route ≠ [] ∧ root.at? start = none ∧
          resolve root start route = (.error (.nothingAt start), root)) ∨
        (route ≠ [] ∧ (root.at? start).isSome ∧
          ∃ w last, resolve root start route = (.ok last.arrival, last.root) ∧
            Resolved root start route w last)) := by
  refine ⟨findOrCreate_eq_resolve root start route, ?_⟩
  by_cases some_step : route = []
  · rw [some_step]
    exact .inl ⟨rfl, rfl⟩
  cases there : root.at? start with
  | none =>
    refine .inr (.inl ⟨some_step, rfl, ?_⟩)
    rw [resolve, if_neg (by simpa using some_step)]
    exact run_of_none (w := Walk.start root start) there route
  | some e => exact .inr (.inr ⟨some_step, rfl, exists_resolved there some_step⟩)

/-- A step can go to what the seed of the step before it brought along. -/
example : (findOrCreate (.named ['a']) .root
    [⟨['b'], none, some (.ofPairs [(['c'], .text ['x'])])⟩, .named ['c']]).map (·.2)
      = .ok ⟨⟨[0, 0]⟩, some 0, [['b']]⟩ := by decide

end Route

end XmlGraft
