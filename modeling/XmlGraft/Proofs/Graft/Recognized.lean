/-
  Recognized — a plugin that was created is found again, or is created once more.

  What a step creates is one thing, and what it accepts another.  A second walk along a route finds
  what the first one created if the last step accepts what it creates.  A step by name always does;
  the plugin's step compares texts that were trimmed with coordinates that were not, so it does when
  the coordinates are trimmed.

  1. **Children of a grown element** (`findChild?_putChild`, `findChild?_append`): where a step
     finds the child that a walk changed or added.

  2. **The second walk** (`follow_again`, `follow_anew`): it goes where the first one went, or it
     creates the last element once more.  By induction along the names of the route: the child to
     which a named step goes is there the second time, as the rest of the walk has grown it
     (`exists_grown`), so only the last step is in question.

  3. **The plugin** (`found_again`): coordinates without spaces around them are recognized.  Others
     are not, unless the plugin was there before (`not_found_again_spaced`).

  Nothing is laid out, written or read between the two walks.  That the plugin is found again in the
  text of a graft, when it is found again in the tree, is the subject of the modules on retracing;
  here it is settled when it is found in the tree at all, for every tree and any three texts.
-/
import Mathlib.Data.Bool.Basic
import XmlGraft.Proofs.Graft.Plugins

namespace XmlGraft

open Markup Markup.Element

/-! ## Children of a grown element -/

namespace Markup.Element

variable {e c c' : Element} {accepts : Element → Bool} {i : Nat}

/-- **In the place of the child that was found** another one that is accepted is found, at the
    same index, as those before it are still rejected. -/
theorem findChild?_putChild (found : e.findChild? accepts = some (i, c)) (accepted : accepts c' = true) :
    (e.putChild i c').findChild? accepts = some (i, c') := by
  obtain ⟨front, back, children, rfl, -, first⟩ := findChild?_eq_some_iff.1 found
  rw [putChild_eq children]
  exact findChild?_eq_some_iff.2 ⟨front, back, rfl, rfl, accepted, first⟩

/-- Putting the child that is found in its place changes nothing. -/
theorem putChild_of_found (found : e.findChild? accepts = some (i, c)) : e.putChild i c = e := by
  obtain ⟨front, back, children, rfl, -, -⟩ := findChild?_eq_some_iff.1 found
  rw [putChild_eq children, ← children]

/-- **Behind the children**, none of which is accepted, a new one is found if it is accepted
    itself; otherwise there is still none. -/
theorem findChild?_append (none : e.findChild? accepts = none) (c : Element) :
    (e.append c.toNode).findChild? accepts
      = if accepts c then some (e.children.length, c) else Option.none := by
  have rejected := findChild?_eq_none_iff.1 none
  have children : (e.append c.toNode).children = e.children ++ c.toNode :: [] := rfl
  split
  · next accepted =>
    exact findChild?_eq_some_iff.2 ⟨e.children, [], children, rfl, accepted, rejected⟩
  · next unaccepted =>
    refine findChild?_eq_none_iff.2 fun x hx => ?_
    rw [children, elements_append, elements_toNode, elements_nil, List.mem_append,
      List.mem_singleton] at hx
    -- a child that was there was rejected, and so is the new one
    rcases hx with hx | rfl
    · exact rejected x hx
    · exact Bool.eq_false_of_not_eq_true unaccepted

end Markup.Element

/-! ## The second walk -/

namespace Route

variable {e c : Element} {s : Step} {route : Route} {i depth : Nat}

/-- What a walk grows keeps its name. -/
theorem name_follow (depth : Nat) (e : Element) (route : Route) :
    (follow depth e route).1.name = e.name := by
  cases route with
  | nil => rfl
  | cons s route =>
    rw [follow]
    split <;> rfl

/-- **A walk into a child that is found** goes on in that child, and puts what becomes of it in
    its place. -/
theorem follow_of_some (found : e.findChild? s.accepts = some (i, c)) (depth : Nat) :
    follow depth e (s :: route)
      = (e.putChild i (follow (depth + 1) c route).1,
        { (follow (depth + 1) c route).2 with
          indices := i :: (follow (depth + 1) c route).2.indices }) := by
  rw [follow, found]

/-- **A walk into a child that is created** goes on in the new child, puts what becomes of it
    behind the others, and tells the depth and the name. -/
theorem follow_of_none (none : e.findChild? s.accepts = none) (depth : Nat) :
    follow depth e (s :: route)
      = (e.append (follow (depth + 1) s.create route).1.toNode,
        ⟨e.children.length :: (follow (depth + 1) s.create route).2.indices, some depth,
          s.name :: (follow (depth + 1) s.create route).2.created⟩) := by
  rw [follow, none]

/-- **The child that a named step goes to**, found or created: in the grown element the step finds it, as
    the rest of the walk has grown it; and if it was created, so is what comes after it. -/
theorem exists_grown (depth : Nat) (e : Element) (name : Text) {route : Route} (more : route ≠ []) :
    ∃ c i, (follow depth e (.named name :: route)).1.findChild? (Step.named name).accepts
        = some (i, (follow (depth + 1) c route).1) ∧
      (follow depth e (.named name :: route)).2.indices = i :: (follow (depth + 1) c route).2.indices ∧
      ((follow depth e (.named name :: route)).2.created = [] ↔
        (follow (depth + 1) c route).2.created = []) := by
  have named (c : Element) : (Step.named name).accepts (follow (depth + 1) c route).1
      = (Step.named name).accepts c := by
    rw [Step.accepts_named, Step.accepts_named, name_follow]
  cases found : e.findChild? (Step.named name).accepts with
  | some child =>
    obtain ⟨i, c⟩ := child
    obtain ⟨front, back, -, -, accepted, -⟩ := findChild?_eq_some_iff.1 found
    rw [follow_of_some found]
    exact ⟨c, i, findChild?_putChild found ((named c).trans accepted), rfl, .rfl⟩
  | none =>
    have accepted : (Step.named name).accepts (Step.named name).create = true := by
      rw [Step.accepts_named, Step.create_named]
      exact beq_self_eq_true name
    -- below a created child nothing can be found, so the rest creates something
    have inside : (follow (depth + 1) (Step.named name).create route).2.created ≠ [] := by
      cases route with
      | nil => exact absurd rfl more
      | cons s route =>
        rw [follow_of_none (findChild?_of_fresh (fresh_named name s))]
        exact List.cons_ne_nil _ _
    rw [follow_of_none found]
    refine ⟨(Step.named name).create, e.children.length, ?_, rfl, nofun, fun none => absurd none inside⟩
    rw [findChild?_append found, named, if_pos accepted]

/-- **What a walk grew is found again**, if the last step accepts what it creates or there was nothing
    to create. -/
theorem follow_again (names : List Text) (s : Step) (depth : Nat) (e : Element)
    (sure : s.accepts s.create = true ∨
      (follow depth e (names.map Step.named ++ [s])).2.created = []) :
    follow depth (follow depth e (names.map Step.named ++ [s])).1 (names.map Step.named ++ [s])
      = ((follow depth e (names.map Step.named ++ [s])).1,
        ⟨(follow depth e (names.map Step.named ++ [s])).2.indices, none, []⟩) := by
  induction names generalizing depth e with
  | nil =>
    simp only [List.map_nil, List.nil_append] at sure ⊢
    cases found : e.findChild? s.accepts with
    | some child =>
      obtain ⟨i, c⟩ := child
      -- the last step found its child, so the first walk changed nothing here
      have same : (follow depth e [s]).1 = e := by
        rw [follow_of_some found]
        exact putChild_of_found found
      rw [same, follow_of_some found, follow, putChild_of_found found]
    | none =>
      rw [follow_of_none found] at sure ⊢
      have accepted : s.accepts s.create = true := sure.resolve_right (List.cons_ne_nil _ _)
      have again : (e.append s.create.toNode).findChild? s.accepts
          = some (e.children.length, s.create) := by rw [findChild?_append found, if_pos accepted]
      rw [follow, follow_of_some again, follow, putChild_of_found again]
  | cons name names ih =>
    rw [List.map_cons, List.cons_append] at sure ⊢
    obtain ⟨c, i, grown, indices, created⟩ :=
      exists_grown depth e name (List.concat_ne_nil s (names.map Step.named))
    rw [follow_of_some grown, ih (depth + 1) c (sure.imp_right created.1), putChild_of_found grown,
      indices]

/-- **What the last step created is created once more**, if the step does not accept it.  The
    steps by name before it find what they created, so it is the only one. -/
theorem follow_anew (names : List Text) (s : Step) (depth : Nat) (e : Element)
    (unsure : s.accepts s.create = false)
    (some_created : (follow depth e (names.map Step.named ++ [s])).2.created ≠ []) :
    (follow depth (follow depth e (names.map Step.named ++ [s])).1
      (names.map Step.named ++ [s])).2.created = [s.name] := by
  induction names generalizing depth e with
  | nil =>
    simp only [List.map_nil, List.nil_append] at some_created ⊢
    cases found : e.findChild? s.accepts with
    | some child =>
      obtain ⟨i, c⟩ := child
      rw [follow_of_some found, follow] at some_created
      exact absurd rfl some_created
    | none =>
      -- the created child is there now, and is not accepted
      have again : (e.append s.create.toNode).findChild? s.accepts = none := by
        rw [findChild?_append found, unsure, if_neg Bool.false_ne_true]
      rw [follow_of_none found, follow, follow_of_none again, follow]
  | cons name names ih =>
    rw [List.map_cons, List.cons_append] at some_created ⊢
    obtain ⟨c, i, grown, -, created⟩ :=
      exists_grown depth e name (List.concat_ne_nil s (names.map Step.named))
    rw [follow_of_some grown]
    exact ih (depth + 1) c (mt created.2 some_created)

end Route

/-! ## The plugin -/

namespace Maven.Coordinates

open Route

/-- **What the plugin's step creates it accepts**, when the coordinates are trimmed, and only
    then.  The rest of the way goes by names, so this is what everything depends on. -/
theorem accepts_create_iff (c : Coordinates) : c.step.accepts c.step.create = true ↔ c.Trimmed := by
  rw [← declaredBy_of_keeps_iff c.keeps_create, Step.accepts, c.step.tag_create.1, beq_self_eq_true,
    Bool.true_and]
  rfl

/-- **A plugin is found again**, whatever the tree and the coordinates, if it was found the first time or
    no coordinate has spaces around it: the second walk changes nothing and leads to where the first one
    led.  Otherwise it creates the plugin once more. -/
theorem found_again (c : Coordinates) (root : Element) :
    ∃ grown arrival again arrival', findOrCreate root .root c.route = .ok (grown, arrival) ∧
      findOrCreate grown .root c.route = .ok (again, arrival') ∧
      (c.Trimmed ∨ arrival.created = [] → again = grown ∧ arrival' = ⟨arrival.address, none, []⟩) ∧
      (¬(c.Trimmed ∨ arrival.created = []) → arrival'.created = ["plugin".toList]) := by
  have some_step : c.route ≠ [] := nofun
  refine ⟨_, _, _, _, findOrCreate_root root some_step, findOrCreate_root _ some_step, ?_, ?_⟩
  · intro sure
    have same := follow_again ["build".toList, "plugins".toList] c.step 0 root
      (sure.imp_left c.accepts_create_iff.2)
    change follow 0 (follow 0 root c.route).1 c.route = _ at same
    rw [same]
    exact ⟨rfl, rfl⟩
  · intro unsure
    -- something was created the first time, and the last step created it or stands in it
    obtain ⟨spaced, some_created⟩ := not_or.1 unsure
    exact follow_anew ["build".toList, "plugins".toList] c.step 0 root
      (Bool.eq_false_of_not_eq_true (mt c.accepts_create_iff.1 spaced)) some_created

/-- A space in front of the group. -/
def spaced : Coordinates := ⟨" g".toList, ['a'], ['1']⟩

/-- The project with plugins of these coordinates. -/
def grownRoot (plugins : Nat) : Element :=
  Sample.root.append (Element.append ((List.replicate plugins spaced.step.create.toNode).foldl
    (fun e n => e.append n) (Element.named "plugins".toList)).toNode (Element.named "build".toList)).toNode

/-- **A space around a coordinate**: the plugin that was created is not recognized, and the second walk
    creates a second one. -/
theorem not_found_again_spaced :
    Document.parse Sample.text = .ok Sample.document ∧
    findOrCreate Sample.root .root spaced.route
      = .ok (grownRoot 1, ⟨⟨[0, 0, 0]⟩, some 0, ["build", "plugins", "plugin"].map String.toList⟩) ∧
    findOrCreate (grownRoot 1) .root spaced.route
      = .ok (grownRoot 2, ⟨⟨[0, 0, 1]⟩, some 2, ["plugin".toList]⟩) := by
  refine ⟨Sample.parse_text, ?_, ?_⟩ <;> with_unfolding_all rfl

end Maven.Coordinates

end XmlGraft
