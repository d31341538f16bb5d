/-
  Keys — what an update needs of the names that it is given.

  The names in a written route are checked to be names (`Route.stepOfText?`).  The key of an
  assignment is only checked to be there (`Fields.assignment?`), although it is written as the name
  of an element just as well.  So one of two ways to give a name lets through what cannot be one,
  and what is then written is no document.

  1. **Keys become names** (`Fields.entries_ofAssignments?`): every field of a list of assignments
     is one of the assignments; none is changed on the way.

  2. **A key that is no name** (`not_parse_spacedKey`): it reaches the text as it is, and the new
     text is not read any more.  The key `c d` makes a tag with an attribute `d` that has no value,
     which is a fault in every start tag of a text (`exists_attributes_of_parse`).

  3. **Keys that are names** (`exists_parse_of_namedKeys`): then every new text is read.  This is
     all that is missing: the other conditions are those under which any update is read back.

  Nothing is said of keys that are refused at once, such as the empty one: there the command ends
  before the file is looked at.  The fault is one of the check alone.  The writer escapes the values
  and writes the names as they are, as it does for the names of elements that were read.
-/
import XmlGraft.Edit.Assignment
import XmlGraft.Proofs.Graft.Updates

namespace XmlGraft

open Markup Graft Route

/-! ## Keys become names -/

namespace Fields

/-- Setting a field adds no field but its own. -/
theorem mem_setIn {name : Text} {value : Scalar} {entries : List (Text × Scalar)}
    {field : Text × Scalar} (h : field ∈ setIn name value entries) :
    field = (name, value) ∨ field ∈ entries := by
  induction entries with
  | nil =>
    rw [setIn, List.mem_singleton] at h
    exact .inl h
  | cons entry entries ih =>
    obtain ⟨n, v⟩ := entry
    rw [setIn] at h
    split at h
    · -- the field takes the place of the one of its name
      next same =>
      rcases List.mem_cons.1 h with rfl | mem
      · exact .inl (by rw [same])
      · exact .inr (List.mem_cons_of_mem _ mem)
    · rcases List.mem_cons.1 h with rfl | mem
      · exact .inr List.mem_cons_self
      · rcases ih mem with own | old
        · exact .inl own
        · exact .inr (List.mem_cons_of_mem _ old)

/-- Fields that are set one after the other are among the pairs. -/
theorem mem_of_mem_ofPairs {pairs : List (Text × Scalar)} :
    ∀ field ∈ (ofPairs pairs).entries, field ∈ pairs := by
  rw [ofPairs]
  have nothing : ∀ field ∈ empty.entries, field ∈ pairs := List.forall_mem_nil _
  refine List.foldlRecOn (motive := fun fields : Fields => ∀ field ∈ fields.entries, field ∈ pairs)
    pairs _ nothing fun fields old pair mem field found => ?_
  rcases mem_setIn found with rfl | found
  · exact mem
  · exact old field found

/-- **Every field of a list of assignments is one of them**: a repeated key takes the later value,
    and no field comes from anywhere else. -/
theorem entries_ofAssignments? {given : List Text} {fields : Fields}
    (h : ofAssignments? given = .ok fields) :
    ∀ field ∈ fields.entries, ∃ a ∈ given, assignment? a = .ok field := by
  rw [ofAssignments?] at h
  cases read : given.mapM assignment? with
  | error fault =>
    rw [read] at h
    cases h
  | ok pairs =>
    rw [read] at h
    cases h
    intro field mem
    exact exists_of_mem_right (forall₂_of_mapM read) (mem_of_mem_ofPairs field mem)

end Fields

/-- **Named keys**: the key of each assignment is a name. -/
def NamedKeys (given : List Text) : Prop :=
  ∀ a ∈ given, ∀ field, Fields.assignment? a = .ok field → isElementName field.1 = true

/-- With named keys the fields have names that are names. -/
theorem NamedKeys.names {given : List Text} {fields : Fields} (h : NamedKeys given)
    (assigned : Fields.ofAssignments? given = .ok fields) :
    ∀ field ∈ fields.entries, isElementName field.1 = true := by
  intro field mem
  obtain ⟨a, here, read⟩ := Fields.entries_ofAssignments? assigned field mem
  exact h a here field read

/-! ## Keys that are no names -/

/-- **In a text that is read**, every start tag has attributes that can be read.  A start tag is a
    step of the builder, which reads the attributes and stops where it cannot. -/
theorem exists_attributes_of_parse {text : Text} {d : Document}
    (parsed : Document.parse text = .ok d) {e : Event}
    (mem : e ∈ (Reading.ofSource (Source.ofText text)).events) {content : Text}
    (token : e.token = .opening content) : ∃ as, attributes content = .ok as := by
  obtain ⟨root, built, -⟩ := Document.built_of_parse parsed
  obtain ⟨front, back, split⟩ := List.append_of_mem mem
  rw [split, List.foldlM_append] at built
  -- the builder got as far as the tag, and behind it
  cases before : front.foldlM Builder.step Builder.start with
  | error fault =>
    rw [before] at built
    cases built
  | ok b =>
    rw [before] at built
    have rest : (e :: back).foldlM Builder.step b = .ok ⟨[], some root⟩ := built
    rw [List.foldlM_cons] at rest
    cases after : b.step e with
    | error fault =>
      rw [after] at rest
      cases rest
    | ok b' =>
      obtain ⟨tag, tagged, -⟩ := Builder.of_step_opening token after
      exact ⟨tag.attributes, (of_tagOf tagged).1⟩

namespace Sample

/-- The way to the child of the small document. -/
def toChild : Route := [.named ['b']]

/-- The field that `c d=1` is. -/
def spacedField : Fields := ⟨[("c d".toList, .integer 1)]⟩

/-- The text with the field in the child. -/
def spaced : Updated :=
  ⟨"<a>\n    <b>\n        <c d>1</c d>\n    </b>\n</a>".toList, ⟨true, [], some ['b'], some ⟨1, 1⟩⟩⟩

end Sample

/-- **A key that is no name spoils a text**: the route and the assignment are taken, the update is
    made, and what it gives is not read. -/
theorem not_parse_spacedKey :
    Document.parse Sample.text = .ok Sample.document ∧
    Route.ofText? ['b'] = .ok Sample.toChild ∧
    Fields.ofAssignments? ["c d=1".toList] = .ok Sample.spacedField ∧
    update Sample.text Sample.toChild Sample.spacedField .standard Sample.markers
      = .ok Sample.spaced ∧
    ¬ ∃ d, Document.parse Sample.spaced.text = .ok d := by
  refine ⟨Sample.parse_text, by with_unfolding_all rfl, by rfl, by decide +kernel, ?_⟩
  rintro ⟨d, parsed⟩
  have tag : (⟨.opening "c d".toList, ⟨⟨20, 25⟩, "<c d>".toList⟩, some ⟨3, 9⟩⟩ : Event)
      ∈ (Reading.ofSource (Source.ofText Sample.spaced.text)).events := by
    refine List.contains_iff_mem.1 ?_
    with_unfolding_all rfl
  -- at the end of the tag an equals sign is expected
  have fault : attributes "c d".toList = .error (.misread (.expectedEquals 3)) := by with_unfolding_all rfl
  obtain ⟨as, read⟩ := exists_attributes_of_parse parsed tag rfl
  rw [fault] at read
  cases read

/-! ## Keys that are names -/

/-- **With named keys every new text is read.**  Assignments with such keys give fields with
    names, and an update with these is read back as the edited tree. -/
theorem exists_parse_of_namedKeys {text path : Text} {given : List Text} {d : Document}
    {route : Route} {fields : Fields} {settings : Settings} {markers : Nat → Text} {u : Updated}
    {root edited : Element} {arrival : Arrival} {count : Nat} (one : AtMostOneMark text)
    (parsed : Document.parse text = .ok d) (names : d.root.hasNames = true)
    (way : Route.ofText? path = .ok route) (assigned : Fields.ofAssignments? given = .ok fields)
    (keys : NamedKeys given)
    (walked : findOrCreate d.root .root route = .ok (root, arrival))
    (written : writeFields root arrival.address fields = .ok (edited, count))
    (unmistakable : Unmistakable { d with root := edited } arrival.address markers)
    (done : update text route fields settings markers = .ok u) :
    ∃ d', Document.parse u.text = .ok d' := by
  have read := Document.read_of_parse one parsed
  obtain ⟨some_step, steps⟩ := of_ofText? way
  -- what the walk and the fields make of the tree is one change at the end of the route
  obtain ⟨count', again⟩ := writeFields_follow d.root route fields
  rw [findOrCreate_root d.root some_step] at walked
  cases walked
  rw [again] at written
  cases written
  have legible : (changeEnd fields.applied route d.root).Legible :=
    legible_changeEnd (read.legible names) (legible_create_of_named steps)
      (legible_applied (keys.names assigned))
  obtain ⟨g, grafted, rfl⟩ := graft_of_update parsed some_step done
  cases route with
  | nil => exact absurd rfl some_step
  | cons s route =>
    -- the graft is at the parent in which the tree changes
    obtain ⟨r, s', rest, p, a, front, t, back, a', -, leads, stepped, changed, site⟩ :=
      exists_site read fields.applied (fresh_of_named steps)
    have there := Element.below?_of_changeBelow? leads.below? changed
    obtain ⟨root', d', -, parsed', -⟩ :=
      parse_graft read legible grafted site there stepped.children unmistakable
    exact ⟨d', parsed'⟩

namespace Sample

/-- The assignment that the field of the small document comes from. -/
def assignments : List Text := ["d=x".toList]

theorem ofAssignments?_assignments : Fields.ofAssignments? assignments = .ok fields := by rfl

theorem namedKeys_assignments : NamedKeys assignments := by
  intro a mem field read
  obtain rfl := List.mem_singleton.1 mem
  obtain rfl : (['d'], Scalar.text ['x']) = field := Except.ok.inj (Eq.trans (by rfl) read)
  rfl

end Sample

/-- The field in a new element of the small document, given as an assignment. -/
theorem exists_parse_of_namedKeys_assignments :
    AtMostOneMark Sample.text ∧ Document.parse Sample.text = .ok Sample.document ∧
    Sample.root.hasNames = true ∧ Route.ofText? "b/c".toList = .ok Sample.route ∧
    Fields.ofAssignments? Sample.assignments = .ok Sample.fields ∧ NamedKeys Sample.assignments ∧
    update Sample.text Sample.route Sample.fields .standard Sample.markers = .ok Sample.updated ∧
    ∃ d', Document.parse Sample.updated.text = .ok d' := by
  have parsed := exists_parse_of_namedKeys (by decide) Sample.parse_text Sample.hasNames_root
    Sample.ofText?_route Sample.ofAssignments?_assignments Sample.namedKeys_assignments
    Sample.findOrCreate_route Sample.writeFields_grownRoot Sample.unmistakable_filledRoot
    Sample.update_text
  exact ⟨by decide, Sample.parse_text, Sample.hasNames_root, Sample.ofText?_route,
    Sample.ofAssignments?_assignments, Sample.namedKeys_assignments, Sample.update_text, parsed⟩

end XmlGraft
