/-
  Again — an update made a second time.

  An update walks a route, writes fields and grafts what changed.  Made a second time, of the text
  it gave, it should walk to the same element, find all fields held and have nothing to graft.  Each
  of the three depends on what became of the element in between: it was laid out, written and read.
  So a change is called lasting when its traces outlive this (`Lasting`), and a route traceable when
  it leads to the same element afterwards (`Traceable`).

  1. **Named steps** (`traceable_of_named`): a written route leads to the same elements again, for
     it goes by names alone, and a name is not changed by layout.

  2. **Fields** (`lasting_applied`): trimmed values under distinct names are a lasting change.  A
     value with spaces around it is written without them, and would not be held; of two values under
     one name only the last would be.

  3. **The second time** (`update_of_leads`): where everything is in place, an update gives the text
     back.  Nothing changes in the tree, so no flag is raised and the target itself is pristine.

  4. **Idempotence** (`update_again`): the text of an update is read as a tree in which everything
     is in place.

  Clean fields are fields that were set one after the other, under names that are names, with values
  that have no spaces around them.  The names and the values are asked for on different grounds: a
  name that is none would make the new text one that is not read, while a value with a space at its
  end is read back without it and written once more.

  The supply of markers of the second update is any supply, since it draws none.
-/
import XmlGraft.Proofs.Graft.Retrace

namespace XmlGraft

open Markup Graft Route

/-! ## Named steps -/

namespace Route

/-- A step that goes by name is steady: it sees neither sources nor layout, and creates nothing
    that a step behind it could find. -/
theorem steady_named (name other : Text) : Steady (.named name) other where
  blind e e' same _ := by rw [Step.accepts_named, Step.accepts_named, same]
  fresh _ hx := by cases hx
  sure e same _ around depth := by
    rw [Step.accepts_named, name_laidElement, same]
    exact beq_self_eq_true name

/-- It finds what it found, after any change that keeps the name. -/
theorem finds_named {f : Element → Element} (tag : ∀ e, (f e).name = e.name) (name : Text) :
    Finds (.named name) f where
  old e accepted := by
    rw [Step.accepts_named] at accepted
    refine .inr ⟨?_, fun around depth => ?_⟩
    · rw [Step.accepts_named, tag, accepted]
    · rw [Step.accepts_named, name_laidElement, tag, accepted]
  new around depth := by
    rw [Step.accepts_named, name_laidElement, tag, Step.create_named]
    exact beq_self_eq_true name

theorem accepts_bare_named (name : Text) (e : Element) :
    (Step.named name).accepts e.bare = (Step.named name).accepts e := by
  rw [Step.accepts_named, Step.accepts_named]
  rfl

/-- **A written route is traceable** for a change that keeps the name: its steps look at names
    alone, and neither laying an element out nor reading it back changes a name. -/
theorem traceable_of_named {f : Element → Element} (tag : ∀ e, (f e).name = e.name) {route : Route}
    (h : route.AllNamed) : Traceable f route where
  steady := by
    induction route with
    | nil => exact .nil
    | cons s route ih =>
      rw [AllNamed, List.forall_mem_cons] at h
      -- each step against the one behind it, since that one searches in what it creates
      refine List.isChain_cons.2 ⟨fun s' _ => ?_, ih h.2⟩
      obtain ⟨name, -, rfl⟩ := h.1
      exact steady_named name s'.name
  finds s last := by
    obtain ⟨name, -, rfl⟩ := h s (List.mem_of_getLast? last)
    exact finds_named tag name
  creates := legible_create_of_named h
  reread s hs e := by
    obtain ⟨name, -, rfl⟩ := h s hs
    exact accepts_bare_named name e

end Route

/-! ## Fields -/

namespace Fields

/-- Setting a field adds its name, unless it is there. -/
theorem map_setIn (name : Text) (value : Scalar) (entries : List (Text × Scalar)) :
    (setIn name value entries).map (·.1)
      = if name ∈ entries.map (·.1) then entries.map (·.1) else entries.map (·.1) ++ [name] := by
  induction entries with
  | nil => rfl
  | cons entry entries ih =>
    obtain ⟨n, v⟩ := entry
    rw [setIn]
    split
    · next same =>
      subst same
      simp
    · next other =>
      rw [List.map_cons, ih, List.map_cons]
      simp only [List.mem_cons, Ne.symm other, false_or]
      split <;> rfl

/-- No name is there twice. -/
def Distinct (fields : Fields) : Prop := (fields.entries.map (·.1)).Nodup

/-- Setting one more field keeps names distinct. -/
theorem Distinct.set {fields : Fields} (h : fields.Distinct) (name : Text) (value : Scalar) :
    (fields.set name value).Distinct := by
  rw [Distinct, Fields.set, map_setIn]
  split
  · exact h
  · next unseen =>
    refine List.nodup_append.2 ⟨h, by simp, fun a ha b hb same => unseen ?_⟩
    obtain rfl := List.mem_singleton.1 hb
    rw [← same]
    exact ha

/-- **Fields that are set one after the other** have distinct names, since setting a name again
    changes the entry that is there. -/
theorem distinct_ofPairs (pairs : List (Text × Scalar)) : (ofPairs pairs).Distinct := by
  rw [ofPairs]
  exact List.foldlRecOn (motive := Distinct) pairs _ List.nodup_nil
    fun _ distinct pair _ => distinct.set pair.1 pair.2

theorem map_written_sublist (fields : Fields) :
    (fields.written.map (·.1)).Sublist (fields.entries.map (·.1)) := by
  obtain ⟨entries⟩ := fields
  rw [written]
  simp only
  induction entries with
  | nil => exact .slnil
  | cons entry entries ih =>
    obtain ⟨name, value⟩ := entry
    rw [List.filterMap_cons, List.map_cons]
    cases value.written? with
    | none => exact ih.cons _
    | some text => exact ih.cons_cons _

/-- Are the values of all fields held? -/
def Held (fields : Fields) (e : Element) : Prop := ∀ v ∈ fields.written, e.Keeps v.1 v.2

theorem held_applied {fields : Fields} (distinct : fields.Distinct) (e : Element) :
    fields.Held (fields.applied e) := keeps_writeAll e (distinct.sublist fields.map_written_sublist)

theorem tag_applied (fields : Fields) (e : Element) :
    (fields.applied e).name = e.name ∧ (fields.applied e).tag.origin = e.tag.origin :=
  tag_writeAll e fields.written

/-- **Fields that are held** change nothing: no child is replaced, and no flag is raised that
    would make the target one to be laid out. -/
theorem applied_of_held {fields : Fields} {e : Element} (h : fields.Held e) : fields.applied e = e :=
  congrArg Prod.fst (writeAll_of_keeps h)

/-- **Trimmed values are held** in the element as it is laid out.  A value with a space at its end
    would be laid out without it, and then be written once more. -/
theorem Held.laid {fields : Fields} {e : Element} (h : fields.Held e)
    (trimmed : ∀ v ∈ fields.written, Text.trim v.2 = v.2) (m : Margin) (depth : Nat) :
    fields.Held (m.laidElement depth e) :=
  fun v hv => keeps_laidElement (h v hv) (trimmed v hv) m depth

theorem Held.reread {fields : Fields} {e e' : Element} (h : fields.Held e) (same : e'.bare = e.bare) :
    fields.Held e' := fun v hv => (h v hv).of_bare same

end Fields

/-- **Fields that stay as they are written**: they were set one after the other, under names, and no
    value has spaces around it. -/
structure Fields.Clean (fields : Fields) : Prop where
  set : ∃ pairs, fields = .ofPairs pairs
  names : ∀ field ∈ fields.entries, isElementName field.1 = true
  trimmed : ∀ v ∈ fields.written, Text.trim v.2 = v.2

theorem clean_empty : Fields.empty.Clean where
  set := ⟨[], rfl⟩
  names _ mem := by cases mem
  trimmed _ mem := by cases mem

/-- **Clean fields are a lasting change**: they are held once they are applied, and still are when
    the element was laid out and read back.  Both conditions of being clean are used, distinct
    names for the first and trimmed values for the second. -/
theorem lasting_applied {fields : Fields} (clean : fields.Clean) :
    Lasting fields.applied fields.Held where
  done := by
    obtain ⟨pairs, rfl⟩ := clean.set
    exact Fields.held_applied (Fields.distinct_ofPairs pairs)
  tag := fields.tag_applied
  legible := legible_applied clean.names
  laid _ held m depth := held.laid clean.trimmed m depth
  reread _ _ same held := held.reread same

/-! ## The second time -/

/-- Settings under which a graft was made have a valid unit. -/
theorem unit_of_graft {d : Document} {target : Address} {s : Settings} {markers : Nat → Text}
    {g : Grafted} (done : graft d target s markers = .ok g) : ∃ unit, s.unit = .ok unit := by
  rw [graft, graftCounted] at done
  split at done
  · cases done
  · next unit valid => exact ⟨unit, valid⟩

/-- A target that a route leads to is below another element. -/
theorem finishUpdate_of_leads {text : Text} {d : Document} (read : d.Read text) {route : Route}
    (some_step : route ≠ []) {p : List Nat} {t : Element} (leads : Leads route d.root p t)
    {settings : Settings} {unit : IndentUnit} (valid : settings.unit = .ok unit)
    (markers : Nat → Text) :
    finishUpdate d ⟨p⟩ [] settings markers = .ok ⟨text, ⟨false, [], none, none⟩⟩ := by
  -- the route has a step, so the target has a parent that the graft can stand in
  have below : ∃ p' i, p = p' ++ [i] := by
    cases leads with
    | here => exact absurd rfl some_step
    | @down s route e c t i p found more =>
      exact ⟨(i :: p).dropLast, _, (List.dropLast_append_getLast (List.cons_ne_nil i p)).symm⟩
  obtain ⟨p', i, rfl⟩ := below
  rw [finishUpdate, graft_unchanged read leads.below? valid markers]

/-- **Where everything is in place**, an update gives the text back, reports no change and draws
    no marker.  Only the indentation unit is still looked at, so it has to be a valid one. -/
theorem update_of_leads {text : Text} {d : Document} (parsed : Document.parse text = .ok d)
    (read : d.Read text) {route : Route} (some_step : route ≠ []) {p : List Nat} {t : Element}
    (leads : Leads route d.root p t) {fields : Fields} (held : fields.Held t) {settings : Settings}
    {unit : IndentUnit} (valid : settings.unit = .ok unit) (markers : Nat → Text) :
    update text route fields settings markers = .ok ⟨text, ⟨false, [], none, none⟩⟩ := by
  have same : d.root.changeBelow? fields.applied p = some d.root :=
    Element.changeBelow?_of_fixed leads.below? (Fields.applied_of_held held)
  rw [update, readDocument, parsed]
  simp only [bind, Except.bind, findOrCreate_root d.root some_step, leads.follow 0, asFailure,
    writeFields_eq fields leads.below? same]
  exact finishUpdate_of_leads read some_step leads valid markers

/-! ## Idempotence -/

/-- **Idempotence**: the same update of the new text finds everything in place, whatever markers
    it would draw.  The first update gives a text in which the route can be retraced to the
    fields; the second then only walks. -/
theorem update_again {text path : Text} {d : Document} {route : Route} {fields : Fields}
    {settings : Settings} {markers : Nat → Text} {u : Updated} {root edited : Element}
    {arrival : Arrival} {count : Nat} (one : AtMostOneMark text) (parsed : Document.parse text = .ok d)
    (names : d.root.hasNames = true) (given : Route.ofText? path = .ok route)
    (clean : fields.Clean)
    (walked : findOrCreate d.root .root route = .ok (root, arrival))
    (written : writeFields root arrival.address fields = .ok (edited, count))
    (unmistakable : Unmistakable { d with root := edited } arrival.address markers)
    (done : update text route fields settings markers = .ok u) (markers' : Nat → Text) :
    update u.text route fields settings markers' = .ok ⟨u.text, ⟨false, [], none, none⟩⟩ := by
  have read := Document.read_of_parse one parsed
  obtain ⟨some_step, steps⟩ := of_ofText? given
  rw [findOrCreate_root d.root some_step] at walked
  cases walked
  obtain ⟨count', again⟩ := writeFields_follow d.root route fields
  rw [again] at written
  cases written
  -- the first update is a graft of the edited tree
  obtain ⟨g, grafted, rfl⟩ := graft_of_update parsed some_step done
  obtain ⟨unit, valid⟩ := unit_of_graft grafted
  have lasting := lasting_applied clean
  have traceable := traceable_of_named (fun e => (lasting.tag e).1) steps
  obtain ⟨d', p, t, parsed', read', leads, held⟩ :=
    exists_leads_of_graft read (read.legible names) lasting some_step traceable grafted unmistakable
  exact update_of_leads parsed' read' some_step leads held valid markers'

/-- The field in the new element of the small document, written a second time. -/
theorem update_again_filledRoot :
    AtMostOneMark Sample.text ∧ Document.parse Sample.text = .ok Sample.document ∧
    Sample.root.hasNames = true ∧ Route.ofText? "b/c".toList = .ok Sample.route ∧ Sample.fields.Clean ∧
    update Sample.text Sample.route Sample.fields .standard Sample.markers = .ok Sample.updated ∧
    update Sample.updated.text Sample.route Sample.fields .standard Sample.markers
      = .ok ⟨Sample.updated.text, ⟨false, [], none, none⟩⟩ := by
  have clean : Sample.fields.Clean := by
    refine ⟨⟨_, rfl⟩, Sample.names_fields, fun v hv => ?_⟩
    obtain rfl := List.mem_singleton.1 hv
    rfl
  have again := update_again (by decide) Sample.parse_text Sample.hasNames_root
    Sample.ofText?_route clean Sample.findOrCreate_route Sample.writeFields_grownRoot
    Sample.unmistakable_filledRoot Sample.update_text Sample.markers
  exact ⟨by decide, Sample.parse_text, Sample.hasNames_root, Sample.ofText?_route, clean,
    Sample.update_text, again⟩

end XmlGraft
