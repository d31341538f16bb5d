/-
  Plugins — the configuration of a plugin, written a second time.

  A plugin is found by its coordinates, which stand in it as texts, and is created with them where
  it is not found.  Its configuration and a block in that are entered one after the other, and
  fields are written into both.  For idempotence all of this is put in the form in which it was
  shown for fields at the end of a route: a traceable route, and a change at its end that lasts.

  1. **The plugin's step** (`steady_step`): it looks at the coordinates alone, and finds the plugin
     that it created in the text of the graft.  This needs coordinates without spaces around them,
     for texts are compared trimmed (`declaredBy_of_keeps_iff`).

  2. **The change of the tree** (`changeTree_eq`): one change at the end of one route.  Entering a
     child and changing it is a change of the parent (`Reached.enter_eq`), so three walks are told
     as one.

  3. **Lasting** (`lasting_configured`): clean fields of the application and the deployment.  A
     field of the application that is named like the block of the deployment would be overwritten by
     it, or the other way round; such fields are not clean.

  4. **Idempotence** (`apply_again`): the second time the plugin is found, its configuration and the
     block are there, and all fields are held.

  The plugin's step is the only one here that looks at more than a name.  What changes below it is
  the configuration, under a name that the step does not look at.  That is all that steadiness asks,
  so the search for the plugin needs no induction of its own.
-/
import XmlGraft.Graft.Maven
import XmlGraft.Proofs.Graft.Again

namespace XmlGraft

open Markup Graft Route

/-! ## Texts of children -/

namespace Markup.Element

/-- The text of an element does not depend on its source. -/
theorem text_bare (e : Element) : e.bare.text = e.text := by
  rw [text, text, bare, bareAll_eq_map, List.flatMap_map]
  congr 2
  funext n
  cases n <;> rfl

theorem childText?_bare (e : Element) (name : Text) : e.bare.childText? name = e.childText? name := by
  rw [childText?, childText?, child?_bare, Option.map_map]
  congr 1
  funext c
  exact text_bare c

/-- **The text of an element that holds a value** is the value, trimmed.  This is where the
    coordinates that are looked for and those that are written can come apart. -/
theorem text_eq_trim {e : Element} {value : Text} (h : e.holds value = true) :
    e.text = Text.trim value := by
  rw [holds] at h
  split at h
  · next nothing =>
    rw [text, nothing, List.isEmpty_iff.1 h]
    rfl
  · next raw only =>
    rw [text, only, List.flatMap_cons, List.flatMap_nil, List.append_nil]
    simp only
    rw [eq_of_beq h]
  · cases h

/-- A held value is the text of its child, without the spaces around it. -/
theorem childText?_of_keeps {e : Element} {name value : Text} (h : e.Keeps name value) :
    e.childText? name = some (Text.trim value) := by
  obtain ⟨c, found, holds⟩ := h
  rw [childText?, found, Option.map_some, text_eq_trim holds]

end Markup.Element

namespace Fields

/-- Writing values adds children of their names alone. -/
theorem name_of_mem_writeAll {e : Element} {values : List (Text × Text)} {x : Element}
    (h : x ∈ elements (writeAll e values).1.children) :
    x.name ∈ values.map (·.1) ∨ ∃ y ∈ elements e.children, y.name = x.name := by
  induction values generalizing e with
  | nil => exact .inr ⟨x, h, rfl⟩
  | cons v values ih =>
    obtain ⟨name, value⟩ := v
    rw [writeAll_cons] at h
    rw [List.map_cons]
    rcases ih h with mem | ⟨y, hy, same⟩
    · exact .inl (List.mem_cons_of_mem _ mem)
    · rw [← same]
      rcases writeOne_cases e name value with
        ⟨front, c, back, children, named, -, ⟨-, own⟩ | own⟩ | ⟨-, own⟩ <;>
        rw [own] at hy
      · exact .inr ⟨y, hy, rfl⟩
      · rw [elements_append, elements_toNode, List.mem_append, List.mem_cons] at hy
        -- the changed child has the name of the one it stands for
        rw [children, elements_append, elements_toNode]
        rcases hy with hy | rfl | hy
        · exact .inr ⟨y, by simp [hy], rfl⟩
        · exact .inl (by rw [Element.name_setText, named]; exact List.mem_cons_self)
        · exact .inr ⟨y, by simp [hy], rfl⟩
      · rw [Element.append, Element.editChildren, elements_append, elements_toNode,
          List.mem_append] at hy
        rcases hy with hy | hy
        · exact .inr ⟨y, hy, rfl⟩
        · obtain rfl := List.mem_singleton.1 hy
          exact .inl List.mem_cons_self

end Fields

namespace Maven

/-! ## The plugin's step -/

namespace Coordinates

/-- No coordinate has spaces around it. -/
def Trimmed (c : Coordinates) : Prop := ∀ v ∈ c.values, Text.trim v = v

theorem written_seed (c : Coordinates) : c.seed.written = names.zip c.values := by
  rfl

theorem nodup_names : names.Nodup := by decide

/-- The coordinates are all that counts for what is a declaration. -/
theorem declaredBy_congr (c : Coordinates) {e e' : Element}
    (h : ∀ name ∈ names, e'.childText? name = e.childText? name) :
    c.declaredBy e' = c.declaredBy e := by
  have group := h "groupId".toList (by simp [names])
  have artifact := h "artifactId".toList (by simp [names])
  have version := h "version".toList (by simp [names])
  rw [declaredBy, declaredBy, group, artifact, version]

/-- **An element that holds the coordinates declares the plugin** when they are trimmed, and only
    then: the search compares trimmed texts with the coordinates as they were given. -/
theorem declaredBy_of_keeps_iff {c : Coordinates} {e : Element}
    (h : ∀ v ∈ names.zip c.values, e.Keeps v.1 v.2) : c.declaredBy e = true ↔ c.Trimmed := by
  have group := Element.childText?_of_keeps (h ("groupId".toList, c.groupId) (by simp [names, values]))
  have artifact := Element.childText?_of_keeps
    (h ("artifactId".toList, c.artifactId) (by simp [names, values]))
  have version := Element.childText?_of_keeps (h ("version".toList, c.version) (by simp [names, values]))
  rw [declaredBy, group, artifact, version]
  simp [Trimmed, values, and_assoc]

theorem create_step (c : Coordinates) : c.step.create = c.seed.applied (.named "plugin".toList) := rfl

theorem map_zip_names (c : Coordinates) : (names.zip c.values).map (·.1) = names := rfl

/-- A created plugin holds its coordinates. -/
theorem keeps_create (c : Coordinates) : ∀ v ∈ names.zip c.values, c.step.create.Keeps v.1 v.2 := by
  rw [create_step, ← written_seed]
  refine Fields.keeps_writeAll _ ?_
  rw [written_seed, map_zip_names]
  exact nodup_names

/-- **The plugin's step is steady**: what it looks at are the children for the three coordinates,
    so a change of the configuration does not count for it. -/
theorem steady_step {c : Coordinates} (trimmed : c.Trimmed) :
    Steady c.step "configuration".toList where
  blind e e' same others := by
    have texts : ∀ name ∈ names, e'.childText? name = e.childText? name := by
      intro name mem
      rw [Element.childText?, Element.childText?, others]
      rintro rfl
      exact absurd mem (by decide)
    rw [Step.accepts, Step.accepts, same]
    simp only [step, declaredBy_congr c texts]
  fresh x hx := by
    rw [create_step] at hx
    rcases Fields.name_of_mem_writeAll hx with mem | ⟨y, hy, -⟩
    · rw [written_seed, map_zip_names] at mem
      intro same
      rw [same] at mem
      exact absurd mem (by decide)
    · cases hy
  sure e same others around depth := by
    have keeps : ∀ v ∈ names.zip c.values, (around.laidElement depth e).Keeps v.1 v.2 := by
      intro v hv
      obtain ⟨name, value⟩ := List.of_mem_zip hv
      obtain ⟨x, found, holds⟩ := c.keeps_create v hv
      refine keeps_laidElement ⟨x, ?_, holds⟩ (trimmed v.2 value) around depth
      rw [others v.1, found]
      -- the configuration is none of the coordinates
      intro clash
      rw [clash] at name
      exact absurd name (by decide)
    rw [Step.accepts, name_laidElement, same]
    simp only [step, beq_self_eq_true, (declaredBy_of_keeps_iff keeps).2 trimmed, Bool.and_self]

/-- The plugin's step does not look at sources. -/
theorem accepts_bare (c : Coordinates) (e : Element) : c.step.accepts e.bare = c.step.accepts e := by
  rw [Step.accepts, Step.accepts]
  simp only [step, c.declaredBy_congr fun name _ => Element.childText?_bare e name]
  rfl

/-- It finds what it created, once that is laid out, and what was there. -/
theorem finds_step {c : Coordinates} (trimmed : c.Trimmed) : Finds c.step id where
  old _ _ := .inl rfl
  new around depth := (steady_step trimmed).sure _ c.step.tag_create.1 (fun _ _ => rfl) around depth

theorem isElementName_names : ∀ name ∈ names, isElementName name = true := by decide

/-- A created plugin is legible, whatever its coordinates are, since these are written as escaped
    texts. -/
theorem legible_create_step (c : Coordinates) : c.step.create.Legible := by
  refine Step.legible_create (plainName_of_isElementName (by rfl)) ?_
  rintro seed ⟨⟩ v hv
  rw [written_seed] at hv
  exact plainName_of_isElementName (isElementName_names _ (List.of_mem_zip hv).1)

/-- **The route to the plugin is traceable** when nothing is changed there.  Its last step creates
    what it accepts, since the coordinates are trimmed. -/
theorem traceable_route {c : Coordinates} (trimmed : c.Trimmed) : Traceable id c.route where
  -- two steps by name, and the plugin's step behind them
  steady := .cons_cons (steady_named _ _) (.cons_cons (steady_named _ _) (.singleton _))
  finds s last := by
    cases last
    exact finds_step trimmed
  creates := by
    rw [route, List.forall_mem_cons, List.forall_mem_cons, List.forall_mem_singleton]
    exact ⟨Fields.legible_named (plainName_of_isElementName (by rfl)),
      Fields.legible_named (plainName_of_isElementName (by rfl)), c.legible_create_step⟩
  reread := by
    rw [route, List.forall_mem_cons, List.forall_mem_cons, List.forall_mem_singleton]
    exact ⟨accepts_bare_named _, accepts_bare_named _, c.accepts_bare⟩

/-- The route to the configuration of the plugin. -/
def configuration (c : Coordinates) : Route := c.route ++ [.named "configuration".toList]

/-- **The route to the configuration is traceable** for a change that keeps the name: one more
    step by name, behind the plugin's step. -/
theorem traceable_configuration {c : Coordinates} (trimmed : c.Trimmed) {f : Element → Element}
    (tag : ∀ e, (f e).name = e.name) : Traceable f c.configuration where
  steady := .cons_cons (steady_named _ _) (.cons_cons (steady_named _ _)
    (.cons_cons (steady_step trimmed) (.singleton _)))
  finds s last := by
    cases last
    exact finds_named tag _
  creates := by
    rw [configuration, List.forall_mem_append, List.forall_mem_singleton]
    exact ⟨(traceable_route trimmed).creates,
      Fields.legible_named (plainName_of_isElementName (by rfl))⟩
  reread := by
    rw [configuration, List.forall_mem_append, List.forall_mem_singleton]
    exact ⟨(traceable_route trimmed).reread, accepts_bare_named _⟩

end Coordinates

/-! ## The change of the tree -/

namespace Reached

/-- **Entering a child** shifts every later change there: a change at the new address is a change
    at the end of the one step, made at the old address. -/
theorem enter_eq {r : Reached} {e : Element} (there : r.root.below? r.address.indices = some e)
    (name : Text) :
    ∃ r', r.enter name = .ok r' ∧
      r'.address.indices = r.address.indices ++ (follow r.address.depth e [.named name]).2.indices ∧
      ∀ g, r'.root.changeBelow? g r'.address.indices
        = r.root.changeBelow? (changeEnd g [.named name]) r.address.indices := by
  obtain ⟨root, ⟨start⟩, created⟩ := r
  obtain ⟨root', changed, found⟩ := findOrCreate_eq (List.cons_ne_nil (.named name) []) there
  refine ⟨⟨root', ⟨start ++ (follow start.length e [.named name]).2.indices⟩,
    created ++ (follow start.length e [.named name]).2.created⟩, ?_, rfl, fun g => ?_⟩
  · rw [enter]
    simp only [bind, Except.bind, found]
    rfl
  · -- the change in the child, at the address that the walk gave
    have arrived := Element.below?_of_changeBelow? there changed
    show root'.changeBelow? g (start ++ (follow start.length e [.named name]).2.indices) = _
    rw [Element.changeBelow?_append arrived (changeBelow?_follow g start.length e [.named name]),
      Element.changeBelow?_changeBelow? changed]
    exact Element.changeBelow?_congr there rfl

/-- **Writing fields**, or none, is a change in its place, and the address stays the same for what
    comes behind it. -/
theorem write_eq {r : Reached} {e : Element} (there : r.root.below? r.address.indices = some e)
    (fields : Option Fields) :
    ∃ r', r.write fields = .ok r' ∧ r'.address = r.address ∧
      r.root.changeBelow? (fields.getD .empty).applied r.address.indices = some r'.root := by
  cases fields with
  | none => exact ⟨r, rfl, rfl, Element.changeBelow?_of_fixed there rfl⟩
  | some fields =>
    obtain ⟨root', changed⟩ := Element.exists_changeBelow? there fields.applied
    refine ⟨⟨root', r.address, r.created⟩, ?_, rfl, changed⟩
    rw [write]
    simp only [bind, Except.bind, writeFields_eq fields there changed]
    rfl

/-- Entering a child that is there changes nothing. -/
theorem enter_of_child {r : Reached} {e c : Element} {name : Text} {i : Nat}
    (there : r.root.below? r.address.indices = some e)
    (child : e.findChild? (Step.named name).accepts = some (i, c)) :
    r.enter name = .ok ⟨r.root, ⟨r.address.indices ++ [i]⟩, r.created⟩ := by
  obtain ⟨root, ⟨start⟩, created⟩ := r
  have leads : Leads [.named name] e [i] c := .down child .here
  obtain ⟨root', changed, found⟩ := findOrCreate_eq (List.cons_ne_nil (.named name) []) there
  rw [leads.follow] at changed found
  have same := Element.changeBelow?_of_fixed (f := fun _ => e) there rfl
  rw [changed] at same
  cases same
  rw [enter]
  simp only [bind, Except.bind, found, List.append_nil]
  rfl

/-- Writing fields that are held changes nothing. -/
theorem write_of_held {r : Reached} {e : Element} (there : r.root.below? r.address.indices = some e)
    (fields : Option Fields) (held : (fields.getD .empty).Held e) : r.write fields = .ok r := by
  cases fields with
  | none => rfl
  | some fields =>
    have same : r.root.changeBelow? fields.applied r.address.indices = some r.root :=
      Element.changeBelow?_of_fixed there (Fields.applied_of_held held)
    rw [write]
    simp only [bind, Except.bind, writeFields_eq fields there same]
    rfl

end Reached

namespace PluginUpdate

/-- The configuration with the deployment block in it. -/
def deployed (u : PluginUpdate) (e : Element) : Element :=
  match u.deployment with
  | none => e
  | some fields => changeEnd fields.applied [.named "deployment".toList] e

/-- **The configuration with all fields written.** -/
def configured (u : PluginUpdate) (e : Element) : Element :=
  u.deployed ((u.application.getD .empty).applied e)

/-- Is nothing to be configured? -/
def isEmpty (u : PluginUpdate) : Bool := u.application.isNone && u.deployment.isNone

/-- **What is changed**: the plugin, if there is nothing to be configured, or its configuration. -/
def route (u : PluginUpdate) : Route :=
  if u.isEmpty then u.coordinates.route else u.coordinates.configuration

/-- Without fields nothing is changed. -/
theorem configured_of_isEmpty {u : PluginUpdate} (empty : u.isEmpty = true) : u.configured = id := by
  obtain ⟨application, deployment⟩ := Bool.and_eq_true_iff.1 empty
  funext e
  rw [configured, deployed, Option.isNone_iff_eq_none.1 application,
    Option.isNone_iff_eq_none.1 deployment]
  rfl

/-- **The deployment block** is entered and filled, which is one change of the configuration.  The
    address comes back to the configuration, so that the change can be joined to the others. -/
theorem deploy_eq (u : PluginUpdate) {r : Reached} {e : Element}
    (there : r.root.below? r.address.indices = some e) :
    ∃ r', u.deploy r = .ok r' ∧ r'.address = r.address ∧
      r.root.changeBelow? u.deployed r.address.indices = some r'.root := by
  rw [deploy]
  cases given : u.deployment with
  | none =>
    exact ⟨r, rfl, rfl, Element.changeBelow?_of_fixed there (by rw [deployed, given])⟩
  | some fields =>
    obtain ⟨block, entered, -, shift⟩ := Reached.enter_eq there "deployment".toList
    obtain ⟨root', changed⟩ := Element.exists_changeBelow? there
      (changeEnd fields.applied [.named "deployment".toList])
    -- a change of the block is a change of what holds it
    rw [← shift] at changed
    obtain ⟨c, inside⟩ := Element.exists_below?_of_changeBelow? changed
    obtain ⟨filled, written, -, same⟩ := Reached.write_eq inside (some fields)
    rw [Option.getD_some, changed] at same
    cases same
    refine ⟨⟨filled.root, r.address, filled.created⟩, ?_, rfl, ?_⟩
    · simp only [bind, Except.bind, entered, written]
      rfl
    · rw [shift] at changed
      rw [← changed]
      exact Element.changeBelow?_congr there (by rw [deployed, given])

/-- **The change of the tree** is one change at the end of one route.  What the program does in up
    to five steps at different addresses is brought into the form for which updates are proved to
    last. -/
theorem changeTree_eq (u : PluginUpdate) (root : Element) :
    ∃ created, u.changeTree root
      = .ok ⟨changeEnd u.configured u.route root, ⟨(follow 0 root u.route).2.indices⟩, created⟩ := by
  have some_step : u.coordinates.route ≠ [] := List.cons_ne_nil _ _
  have arrived (g : Element → Element) := changeBelow?_follow g 0 root u.coordinates.route
  obtain ⟨p, there⟩ := Element.exists_below?_of_changeBelow? (arrived id)
  rw [changeTree, plugin]
  simp only [bind, Except.bind, findOrCreate_root root some_step, pure, Except.pure]
  cases empty : u.isEmpty with
  | true =>
    refine ⟨(follow 0 root u.coordinates.route).2.created, ?_⟩
    rw [if_pos (by exact empty), route, if_pos empty, configured_of_isEmpty empty]
    -- nothing is written, so the change at the end is none
    have kept := Element.changeBelow?_of_fixed (f := id) there rfl
    rw [arrived] at kept
    rw [Option.some.inj kept]
  | false =>
    have some_fields : (u.application.isNone && u.deployment.isNone) = false := empty
    obtain ⟨r, entered, address, shift⟩ := Reached.enter_eq (r := ⟨(follow 0 root u.coordinates.route).1,
      ⟨(follow 0 root u.coordinates.route).2.indices⟩, (follow 0 root u.coordinates.route).2.created⟩)
      there "configuration".toList
    have place : r.address = ⟨(follow 0 root u.coordinates.configuration).2.indices⟩ := by
      rw [Coordinates.configuration, indices_append there, ← address]
    -- every later change of the configuration is one at the end of the route from the root
    have whole (g : Element → Element) : r.root.changeBelow? g r.address.indices
        = some (changeEnd g u.coordinates.configuration root) := by
      rw [shift, arrived, Coordinates.configuration, changeEnd_append]
    obtain ⟨c, inside⟩ := Element.exists_below?_of_changeBelow? (whole id)
    obtain ⟨w, written, same, changed⟩ := Reached.write_eq inside u.application
    have inside' : w.root.below? w.address.indices = some ((u.application.getD .empty).applied c) := by
      rw [same]
      exact Element.below?_of_changeBelow? inside changed
    obtain ⟨r', deployed, same', changed'⟩ := u.deploy_eq inside'
    refine ⟨r'.created, ?_⟩
    rw [same, Element.changeBelow?_changeBelow? changed, whole] at changed'
    have tree : changeEnd u.configured u.coordinates.configuration root = r'.root :=
      Option.some.inj changed'
    rw [if_neg (by rw [some_fields]; exact Bool.false_ne_true), entered]
    simp only [written, deployed]
    rw [route, empty, if_neg Bool.false_ne_true, ← place, ← same, ← same', tree]

/-! ## Lasting -/

/-- **A clean change**: coordinates without spaces around them and clean fields, where no field of the
    application takes the place of the deployment block. -/
structure Clean (u : PluginUpdate) : Prop where
  coordinates : u.coordinates.Trimmed
  application : ∀ fields, u.application = some fields → fields.Clean
  deployment : ∀ fields, u.deployment = some fields → fields.Clean
  apart : ∀ application, u.application = some application → u.deployment.isSome = true →
    ∀ v ∈ application.written, v.1 ≠ "deployment".toList

/-- **Everything is in place** in a configuration. -/
def InPlace (u : PluginUpdate) (e : Element) : Prop :=
  (u.application.getD .empty).Held e ∧ ∀ fields, u.deployment = some fields →
    ∃ block, e.child? "deployment".toList = some block ∧ fields.Held block

/-- No fields of the application are clean fields, too. -/
theorem Clean.getD {u : PluginUpdate} (clean : u.Clean) : (u.application.getD .empty).Clean := by
  cases given : u.application with
  | none => exact clean_empty
  | some fields => exact clean.application fields given

/-- **After the change everything is in place.**  The block is written last; it does not move the
    fields of the application, which have other names. -/
theorem inPlace_configured {u : PluginUpdate} (clean : u.Clean) (e : Element) :
    u.InPlace (u.configured e) := by
  have held := (lasting_applied clean.getD).done e
  rw [configured, deployed]
  cases given : u.deployment with
  | none => exact ⟨held, fun _ some => by rw [given] at some; cases some⟩
  | some fields =>
    obtain ⟨⟨c, block⟩, others⟩ := child?_changeEnd (fun x => (fields.tag_applied x).1)
      ((u.application.getD .empty).applied e) "deployment".toList
    refine ⟨fun v hv => ?_, fun fields' same => ?_⟩
    · obtain ⟨x, found, holds⟩ := held v hv
      refine ⟨x, ?_, holds⟩
      -- a field has another name than the block, so its child stays
      show (changeEnd fields.applied [.named "deployment".toList] _).child? v.1 = some x
      rw [others v.1, found]
      cases application : u.application with
      | none =>
        rw [application] at hv
        cases hv
      | some values =>
        rw [application] at hv
        exact clean.apart values application (by rw [given]; rfl) v hv
    · rw [given] at same
      cases same
      exact ⟨_, block, (lasting_applied (clean.deployment fields given)).done c⟩

/-- **A clean change is a lasting one.**  The two sets of fields are written to different
    elements, and the deployment block is no field of the configuration. -/
theorem lasting_configured {u : PluginUpdate} (clean : u.Clean) : Lasting u.configured u.InPlace where
  done := inPlace_configured clean
  tag e := by
    have own := (u.application.getD .empty).tag_applied e
    rw [configured, deployed]
    split
    · exact own
    · next fields given =>
      have block := tag_changeEnd fields.applied (.named "deployment".toList) []
        ((u.application.getD .empty).applied e)
      exact ⟨block.1.trans own.1, block.2.trans own.2⟩
  legible e h := by
    have own := (lasting_applied clean.getD).legible e h
    rw [configured, deployed]
    split
    · exact own
    · next fields given =>
      refine legible_changeEnd own ?_ (lasting_applied (clean.deployment fields given)).legible
      rw [List.forall_mem_singleton]
      exact Fields.legible_named (plainName_of_isElementName (by rfl))
  -- the fields in their places, and then those of the block one level down
  laid e h s depth := by
    refine ⟨h.1.laid clean.getD.trimmed s depth, fun fields given => ?_⟩
    obtain ⟨block, found, held⟩ := h.2 fields given
    exact ⟨_, by rw [child?_laidElement, found, Option.map_some],
      held.laid (clean.deployment fields given).trimmed s _⟩
  reread e e' same h := by
    refine ⟨h.1.reread same, fun fields given => ?_⟩
    obtain ⟨block, found, held⟩ := h.2 fields given
    obtain ⟨block', found', bare⟩ := Element.child?_of_bare same found
    exact ⟨block', found', held.reread bare⟩

/-- **The way of a clean change is traceable.**  Where the configuration is left out, nothing is
    changed at the end of the way, which is the plugin then. -/
theorem traceable {u : PluginUpdate} (clean : u.Clean) : Traceable u.configured u.route := by
  rw [route]
  split
  · next empty =>
    rw [configured_of_isEmpty empty]
    exact Coordinates.traceable_route clean.coordinates
  · exact Coordinates.traceable_configuration clean.coordinates
      fun e => ((lasting_configured clean).tag e).1

/-! ## Idempotence -/

/-- **Where everything is in place**, the tree is not changed and nothing is created.  Each step
    finds its child, and the fields it would write are held there. -/
theorem changeTree_of_leads {u : PluginUpdate} {root t : Element} {q : List Nat}
    (leads : Leads u.route root q t) (inPlace : u.InPlace t) :
    u.changeTree root = .ok ⟨root, ⟨q⟩, []⟩ := by
  have some_step : u.coordinates.route ≠ [] := List.cons_ne_nil _ _
  rw [changeTree, plugin]
  simp only [bind, Except.bind, findOrCreate_root root some_step, pure, Except.pure]
  rw [route] at leads
  split at leads
  · next empty => rw [if_pos (by exact empty), leads.follow]
  · next some_fields =>
    obtain ⟨p, q', a, rfl, way, last⟩ := leads_append.1 leads
    -- the configuration is there, so entering it changes nothing
    cases last with
    | @down _ _ _ c _ i _ child end_ =>
      cases end_
      rw [if_neg (by exact some_fields), way.follow]
      have there : root.below? p = some a := way.below?
      have inside : root.below? (p ++ [i]) = some t := leads.below?
      simp only [Reached.enter_of_child (r := ⟨root, ⟨p⟩, []⟩) there child,
        Reached.write_of_held (r := ⟨root, ⟨p ++ [i]⟩, []⟩) inside _ inPlace.1]
      rw [deploy]
      cases given : u.deployment with
      | none => rfl
      | some fields =>
        obtain ⟨block, found, held⟩ := inPlace.2 fields given
        obtain ⟨⟨j, b⟩, first, rfl⟩ := Option.map_eq_some_iff.1 found
        have accepts : (Step.named "deployment".toList).accepts = (·.name == "deployment".toList) :=
          funext (Step.accepts_named _)
        rw [← accepts] at first
        have below : root.below? (p ++ [i] ++ [j]) = some b :=
          (leads_append.2 ⟨_, _, _, rfl, leads, .down first .here⟩ : Leads _ root _ b).below?
        simp only [bind, Except.bind, Reached.enter_of_child (r := ⟨root, ⟨p ++ [i]⟩, []⟩) inside first,
          Reached.write_of_held (r := ⟨root, ⟨p ++ [i] ++ [j]⟩, []⟩) below (some fields) held]
        rfl

/-- **Idempotence**: the same change of the new text finds everything in place, whatever markers
    it would draw.  Any mix of what was there and what was created is covered, down to a project
    that is empty. -/
theorem apply_again {text : Text} {d : Document} {u : PluginUpdate} {settings : Settings}
    {markers : Nat → Text} {updated : Updated} {reached : Reached} (one : AtMostOneMark text)
    (parsed : Document.parse text = .ok d) (names : d.root.hasNames = true) (clean : u.Clean)
    (changed : u.changeTree d.root = .ok reached)
    (unmistakable : Unmistakable { d with root := reached.root } reached.address markers)
    (done : u.apply text settings markers = .ok updated) (markers' : Nat → Text) :
    u.apply updated.text settings markers' = .ok ⟨updated.text, ⟨false, [], none, none⟩⟩ := by
  have read := Document.read_of_parse one parsed
  have some_step : u.route ≠ [] := by
    rw [route]
    split <;> exact List.cons_ne_nil _ _
  -- the change of the tree as one at the end of a route, from where the general lemma goes on
  obtain ⟨created, tree⟩ := u.changeTree_eq d.root
  rw [tree] at changed
  cases changed
  rw [apply, readDocument, parsed] at done
  simp only [bind, Except.bind, tree, asFailure, finishUpdate] at done
  split at done
  · cases done
  · next g grafted =>
    cases done
    obtain ⟨unit, valid⟩ := unit_of_graft grafted
    obtain ⟨d', p, t, parsed', read', leads, inPlace⟩ := exists_leads_of_graft read (read.legible names)
      (lasting_configured clean) some_step (traceable clean) grafted unmistakable
    rw [apply, readDocument, parsed']
    simp only [bind, Except.bind, changeTree_of_leads leads inPlace, asFailure]
    exact finishUpdate_of_leads read' some_step leads valid markers'

end PluginUpdate

/-! ### A small project -/

namespace Sample

/-- A project without plugins. -/
def text : Text := "<project/>".toList

/-- Its root element. -/
def root : Element :=
  ⟨⟨"project".toList, [], some ⟨some ⟨1, 1⟩, ⟨⟨0, 10⟩, text⟩, none⟩, false, false⟩, []⟩

/-- What the text is read as. -/
def document : Document := ⟨Source.ofText text, [], root, []⟩

/-- A field of the application and one of the deployment. -/
def pluginUpdate : PluginUpdate :=
  ⟨⟨['g'], ['a'], ['1']⟩, some (.ofPairs [(['p'], .text ['x'])]),
    some (.ofPairs [(['q'], .truth true)])⟩

/-- The configuration with both. -/
def configuration : Element :=
  Element.append (Element.append (Element.ofValue ['q'] "true".toList).toNode
      (Element.named "deployment".toList)).toNode
    (Element.append (Element.ofValue ['p'] ['x']).toNode (Element.named "configuration".toList))

/-- The project with the plugin. -/
def changedRoot : Element :=
  root.append (Element.append (Element.append (pluginUpdate.coordinates.step.create.append
    configuration.toNode).toNode (Element.named "plugins".toList)).toNode
    (Element.named "build".toList)).toNode

/-- What the change of the tree leads to. -/
def reached : Reached :=
  ⟨changedRoot, ⟨[0, 0, 0, 3]⟩,
    ["build", "plugins", "plugin", "configuration", "deployment"].map String.toList⟩

/-- The text with the plugin. -/
def updated : Updated where
  text := ("<project>\n    <build>\n        <plugins>\n            <plugin>\n".toList
    ++ "                <groupId>g</groupId>\n                <artifactId>a</artifactId>\n".toList
    ++ "                <version>1</version>\n                <configuration>\n".toList
    ++ "                    <p>x</p>\n                    <deployment>\n".toList
    ++ "                        <q>true</q>\n                    </deployment>\n".toList
    ++ "                </configuration>\n            </plugin>\n        </plugins>\n".toList
    ++ "    </build>\n</project>".toList)
  report := ⟨true, reached.created, some "build".toList, some ⟨1, 1⟩⟩

theorem clean_pluginUpdate : pluginUpdate.Clean where
  coordinates v hv := by
    rw [Coordinates.values, List.mem_cons, List.mem_cons, List.mem_singleton] at hv
    rcases hv with rfl | rfl | rfl <;> rfl
  application := by
    rintro fields ⟨⟩
    refine ⟨⟨_, rfl⟩, fun field mem => ?_, fun v hv => ?_⟩
    · obtain rfl := List.mem_singleton.1 mem
      rfl
    · obtain rfl := List.mem_singleton.1 hv
      rfl
  deployment := by
    rintro fields ⟨⟩
    refine ⟨⟨_, rfl⟩, fun field mem => ?_, fun v hv => ?_⟩
    · obtain rfl := List.mem_singleton.1 mem
      rfl
    · obtain rfl := List.mem_singleton.1 hv
      rfl
  apart := by
    rintro fields ⟨⟩ - v hv
    obtain rfl := List.mem_singleton.1 hv
    decide

theorem parse_text : Document.parse text = .ok document := by with_unfolding_all rfl

theorem hasNames_root : root.hasNames = true := by rfl

theorem changeTree_root : pluginUpdate.changeTree root = .ok reached := by rfl

set_option maxRecDepth 4000 in
theorem apply_text :
    pluginUpdate.apply text .standard XmlGraft.Sample.markers = .ok updated := by decide +kernel

theorem unmistakable_reached :
    Unmistakable { document with root := reached.root } reached.address XmlGraft.Sample.markers := by
  intro n _
  refine ⟨by unfold XmlGraft.Sample.markers; decide, fun site parent found there _ => ?_⟩
  obtain rfl : (⟨⟨[]⟩, 0⟩ : Site) = site := Except.ok.inj (Eq.trans (by rfl) found)
  obtain rfl : changedRoot = parent := Option.some.inj (Eq.trans (by rfl) there)
  unfold Text.StandsOnce
  rfl

end Sample

namespace PluginUpdate

/-- The plugin of the small project, written a second time. -/
theorem apply_again_sample :
    AtMostOneMark Sample.text ∧ Document.parse Sample.text = .ok Sample.document ∧
    Sample.root.hasNames = true ∧ Sample.pluginUpdate.Clean ∧
    Sample.pluginUpdate.apply Sample.text .standard XmlGraft.Sample.markers = .ok Sample.updated ∧
    Sample.pluginUpdate.apply Sample.updated.text .standard XmlGraft.Sample.markers
      = .ok ⟨Sample.updated.text, ⟨false, [], none, none⟩⟩ := by
  have again := apply_again (by decide) Sample.parse_text Sample.hasNames_root Sample.clean_pluginUpdate
    Sample.changeTree_root Sample.unmistakable_reached Sample.apply_text
    XmlGraft.Sample.markers
  exact ⟨by decide, Sample.parse_text, Sample.hasNames_root, Sample.clean_pluginUpdate,
    Sample.apply_text, again⟩

end PluginUpdate

end Maven

end XmlGraft
