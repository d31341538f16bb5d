/-
  Updates — the text of an update says what the edited tree says.

  An update walks a route in the tree of a document, writes fields where it arrives, and grafts.
  The walk and the fields are one change at the end of the route (`changeEnd`), and this changes the
  children of one parent that was there before.  The graft goes up from the target until it comes to
  an element that was read, and that is this parent.  So the tree changes where the text does.

  1. **Sites** (`exists_site`): after a change at the end of a route, the graft takes place below
     the one parent that was there before.  Between it and the target there are only created
     elements (`siteAbove?_eq`).

  2. **Unchanged documents** (`graft_unchanged`): a graft into a document as it was read gives its
     text back.

  3. **The two halves of an update** (`findOrCreate_root`, `writeFields_follow`): together they
     change the element at the end of the route.

  4. **Written routes** (`of_ofText?`): their steps go by names that are names, and there is one.

  5. **Faithful updates** (`parse_update`): the new text is read as a tree that says what the edited
     tree says.

  What is compared is the gist, in which layout does not count.  More than that cannot be said of
  the laid element, whose texts are trimmed and whose comments are moved; of all others more is
  true, and it is said where the bytes are counted (`Locality`).
-/
import XmlGraft.Graft.Update
import XmlGraft.Proofs.Edit.Routes
import XmlGraft.Proofs.Graft.Locality
import XmlGraft.Proofs.Graft.Regraft

namespace XmlGraft

open Markup

/-! ## Sites -/

/-- An element in a document as it was read stands where it was read. -/
theorem Markup.Document.Read.below? {text : Text} {d : Document} (read : d.Read text) {p : List Nat}
    {a : Element} (found : d.root.below? p = some a) : ∃ o, ReadAt o [a.toNode] := by
  obtain ⟨left, -, -, place, -⟩ := Element.below?_context found
  exact ⟨_, place _ read.tree⟩

namespace Graft

/-- **The site of a target**, when only the elements below it on the way come from no source.  The
    search goes up from the target, and by induction on the way below the parent it passes all of
    them. -/
theorem siteAbove?_eq {root a : Element} {p : List Nat} {i : Nat} (found : root.below? p = some a)
    (located : a.isLocated = true) (q : List Nat)
    (between : ∀ q₁ j q₂, q = q₁ ++ j :: q₂ →
      (root.below? (p ++ i :: q₁)).any (·.isLocated) = false) :
    siteAbove? root (p ++ i :: q).reverse = some ⟨⟨p⟩, i⟩ := by
  rcases List.eq_nil_or_concat q with rfl | ⟨q, j, rfl⟩
  · have here : root.at? ⟨p⟩ = some a := found
    simp [siteAbove?, here, located]
  · -- this element was created, so the way goes on to what holds it
    have there : root.at? ⟨p ++ i :: q⟩ = root.below? (p ++ i :: q) := rfl
    have reverse : (p ++ i :: q.concat j).reverse = j :: (p ++ i :: q).reverse := by simp
    rw [reverse, siteAbove?]
    simp only [List.reverse_reverse]
    rw [there, between q j [] (by rw [List.concat_eq_append]), if_neg Bool.false_ne_true]
    exact siteAbove?_eq found located q fun q₁ k q₂ e => between q₁ k (q₂ ++ [j]) (by rw [e]; simp)
  termination_by q.length

/-- **A child of an element that was read is the site** of its change: the change keeps its
    parent, whose position is where the lines are anchored. -/
theorem site?_changed {text : Text} {d : Document} (read : d.Read text) {q : List Nat}
    {front back : List Node} {a t root : Element} {f : Element → Element}
    (found : d.root.below? q = some a) (children : a.children = front ++ t.toNode :: back)
    (changed : d.root.changeBelow? f (q ++ [front.length]) = some root) :
    d.root.changeBelow? (fun _ => ⟨a.tag, front ++ (f t).toNode :: back⟩) q = some root ∧
      site? root ⟨q ++ [front.length]⟩ = .ok ⟨⟨q⟩, front.length⟩ := by
  have above : a.changeBelow? f [front.length] = some ⟨a.tag, front ++ (f t).toNode :: back⟩ := by
    rw [Element.changeBelow?_cons children]
    rfl
  rw [Element.changeBelow?_append found above] at changed
  refine ⟨changed, ?_⟩
  have there := Element.below?_of_changeBelow? found changed
  have located : (⟨a.tag, front ++ (f t).toNode :: back⟩ : Element).isLocated = true := by
    obtain ⟨o, here⟩ := read.below? found
    exact here.element.1
  have present : (root.at? ⟨q ++ [front.length]⟩).isNone = false := by
    rw [Element.at?, Element.below?_append, there, Option.bind_some, Element.below?_child rfl]
    rfl
  rw [site?, present, if_neg Bool.false_ne_true,
    siteAbove?_eq there located [] fun q₁ j q₂ nothing => by simp at nothing]

open Route

/-- **The site of a change at the end of a route** is below the parent that it changes.
    Everything that was created is inside the child there, so one graft puts all of it into the
    text. -/
theorem exists_site {text : Text} {d : Document} (read : d.Read text) (f : Element → Element) {s : Step}
    {route : Route} (fresh : (s :: route).IsChain Fresh) :
    ∃ (r : Route) (s' : Step) (rest : Route) (p : List Nat) (a : Element) (front : List Node)
      (t : Element) (back : List Node) (a' : Element),
      s :: route = r ++ s' :: rest ∧ Leads r d.root p a ∧ Stepped f s' a rest front t back a' ∧
      d.root.changeBelow? (fun _ => a') p = some (changeEnd f (s :: route) d.root) ∧
      site? (changeEnd f (s :: route) d.root) ⟨(follow 0 d.root (s :: route)).2.indices⟩
        = .ok ⟨⟨p⟩, front.length⟩ := by
  obtain ⟨r, s', rest, p, a, front, t, back, a', whole, leads, stepped, changed, indices⟩ :=
    exists_stepped f s route d.root 0
  refine ⟨r, s', rest, p, a, front, t, back, a', whole, leads, stepped, changed, ?_⟩
  have there := Element.below?_of_changeBelow? leads.below? changed
  have arrived := changeBelow?_follow f 0 d.root (s :: route)
  obtain ⟨target, reached⟩ := Element.exists_below?_of_changeBelow? arrived
  have present := Element.below?_of_changeBelow? reached arrived
  -- a change of its children does not take away where the parent was read
  have located : a'.isLocated = true := by
    obtain ⟨o, here⟩ := read.below? leads.below?
    rw [Element.isLocated, stepped.tag.2.2]
    exact here.element.1
  have child : a'.childAt? front.length = some t :=
    Element.childAt?_eq_some_iff.2 ⟨front, back, stepped.children, rfl⟩
  -- on the way up from the target, `a'` is the first element that was read
  have site := siteAbove?_eq (i := front.length) there located
    (follow (0 + p.length + 1) s'.create rest).2.indices fun q₁ j q₂ way => by
      rw [Element.below?_append, there, Option.bind_some, Element.below?, child, Option.bind_some]
      cases stepped with
      | found => simp [follow] at way
      | created =>
        rw [whole] at fresh
        exact not_located_of_created f (List.isChain_append.1 fresh).2.1 way
  rw [site?, Element.at?, present, Option.isNone_some, if_neg Bool.false_ne_true, indices, site]

end Graft

open Graft Route

/-! ## Unchanged documents -/

/-- **A graft into a document as it was read** gives its text back: the target is pristine, and so
    the document is written, which is the source. -/
theorem graft_unchanged {text : Text} {d : Document} (read : d.Read text) {p : List Nat} {i : Nat}
    {t : Element} (found : d.root.below? (p ++ [i]) = some t) {s : Settings} {unit : IndentUnit}
    (valid : s.unit = .ok unit) (markers : Nat → Text) :
    graft d ⟨p ++ [i]⟩ s markers = .ok ⟨text, false, none, none⟩ := by
  have at_ : d.root.at? ⟨p ++ [i]⟩ = some t := found
  rw [Element.below?_append, Option.bind_eq_some_iff] at found
  obtain ⟨a, parent, child⟩ := found
  rw [Element.below?, Option.bind_eq_some_iff] at child
  obtain ⟨c, child, same⟩ := child
  obtain rfl : c = t := Option.some.inj same
  obtain ⟨o, here⟩ := read.below? parent
  have located := here.element.1
  -- nothing is laid out, for the child was read
  have pristine : c.isPristine = true := by
    obtain ⟨front, back, children, -⟩ := Element.childAt?_eq_some_iff.1 child
    exact here.isPristine_child children
  have site : site? d.root ⟨p ++ [i]⟩ = .ok ⟨⟨p⟩, i⟩ := by
    rw [site?, at_, Option.isNone_some, if_neg Bool.false_ne_true]
    rw [siteAbove?_eq parent located [] fun q₁ j q₂ nothing => by simp at nothing]
  obtain ⟨anchor, position⟩ := Option.isSome_iff_exists.1 located
  obtain ⟨front, back, children, rfl⟩ := Element.childAt?_eq_some_iff.1 child
  rw [graft, graftCounted, valid]
  simp only [site]
  rw [atSite_eq parent children position, if_pos pristine, read.written, read.source, bne_self_eq_false]

/-! ## The two halves of an update -/

/-- The element with the fields written into it. -/
def Fields.applied (fields : Fields) (e : Element) : Element := (fields.applyTo e).1

/-- **A walk from an element** puts what it made of the element in its place, and tells the way
    from the root. -/
theorem findOrCreate_eq {root e : Element} {start : List Nat} {route : Route} (some_step : route ≠ [])
    (there : root.below? start = some e) :
    ∃ root', root.changeBelow? (fun _ => (follow start.length e route).1) start = some root' ∧
      findOrCreate root ⟨start⟩ route
        = .ok (root', ⟨⟨start ++ (follow start.length e route).2.indices⟩,
          (follow start.length e route).2.createdFrom, (follow start.length e route).2.created⟩) := by
  obtain ⟨root', changed⟩ := Element.exists_changeBelow? there
    fun _ => (follow start.length e route).1
  refine ⟨root', changed, ?_⟩
  have at_ : root.at? ⟨start⟩ = some e := there
  have change : root.changeAt? ⟨start⟩ (fun _ => (follow start.length e route).1) = some root' := changed
  rw [findOrCreate, if_neg (by simpa using some_step), at_]
  simp only [Address.depth, change]

/-- **The walk from the root**, as a function of the tree alone: from there it cannot fail, unless
    the route has no step. -/
theorem findOrCreate_root (root : Element) {route : Route} (some_step : route ≠ []) :
    findOrCreate root .root route
      = .ok ((follow 0 root route).1, ⟨⟨(follow 0 root route).2.indices⟩,
        (follow 0 root route).2.createdFrom, (follow 0 root route).2.created⟩) := by
  have there : root.below? [] = some root := rfl
  obtain ⟨root', changed, done⟩ := findOrCreate_eq some_step there
  cases changed
  exact done

/-- Fields are written in the place of an element, and the rest of the tree stays. -/
theorem writeFields_eq {root e root' : Element} {p : List Nat} (fields : Fields)
    (there : root.below? p = some e) (changed : root.changeBelow? fields.applied p = some root') :
    writeFields root ⟨p⟩ fields = .ok (root', (fields.applyTo e).2) := by
  have at_ : root.at? ⟨p⟩ = some e := there
  have change : root.changeAt? ⟨p⟩ (fun _ => (fields.applyTo e).1) = some root' := by
    rw [← changed]
    exact Element.changeBelow?_congr there rfl
  rw [writeFields, at_]
  simp only [change]

/-- **The fields written where the walk arrives** are a change at the end of the route, in which
    address and created elements no longer occur. -/
theorem writeFields_follow (root : Element) (route : Route) (fields : Fields) :
    ∃ count, writeFields (follow 0 root route).1 ⟨(follow 0 root route).2.indices⟩ fields
      = .ok (changeEnd fields.applied route root, count) := by
  have changed := changeBelow?_follow fields.applied 0 root route
  obtain ⟨e, there⟩ := Element.exists_below?_of_changeBelow? changed
  exact ⟨_, writeFields_eq fields there changed⟩

/-- **An update is a graft of the change at the end of the route.**  The walk and the fields are
    one change of the tree that was read, so what is shown of grafts of such changes applies. -/
theorem graft_of_update {text : Text} {d : Document} (parsed : Document.parse text = .ok d)
    {route : Route} (some_step : route ≠ []) {fields : Fields} {settings : Settings}
    {markers : Nat → Text} {u : Updated} (done : update text route fields settings markers = .ok u) :
    ∃ g, graft { d with root := changeEnd fields.applied route d.root }
        ⟨(follow 0 d.root route).2.indices⟩ settings markers = .ok g ∧
      u = ⟨g.text, ⟨g.changed, (follow 0 d.root route).2.created, g.element, g.anchor⟩⟩ := by
  obtain ⟨count, written⟩ := writeFields_follow d.root route fields
  rw [update, readDocument, parsed] at done
  simp only [bind, Except.bind, findOrCreate_root d.root some_step, asFailure, written,
    finishUpdate] at done
  split at done
  · cases done
  · next g grafted => exact ⟨g, grafted, (Except.ok.inj done).symm⟩

/-! ## Written routes -/

/-- What a list is mapped to, one by one. -/
theorem forall₂_of_mapM {α β ε : Type} {g : α → Except ε β} {as : List α} {bs : List β}
    (h : as.mapM g = .ok bs) : List.Forall₂ (fun a b => g a = .ok b) as bs := by
  induction as generalizing bs with
  | nil =>
    cases h
    exact .nil
  | cons a as ih =>
    rw [List.mapM_cons] at h
    cases first : g a with
    -- one failure is a failure of the whole
    | error fault =>
      rw [first] at h
      cases h
    | ok b =>
      cases more : as.mapM g with
      | error fault =>
        rw [first, more] at h
        cases h
      | ok cs =>
        rw [first, more] at h
        cases h
        exact .cons first (ih more)

/-- Every step goes to the first child of a name. -/
def Route.AllNamed (route : Route) : Prop :=
  ∀ s ∈ route, ∃ name, isElementName name = true ∧ s = .named name

/-- **The steps of a written route** go to names, and there is one at least, so no written route
    leads back to the root. -/
theorem of_ofText? {path : Text} {route : Route} (h : Route.ofText? path = .ok route) :
    route ≠ [] ∧ route.AllNamed := by
  rw [Route.ofText?] at h
  split at h
  · cases h
  · have step (name : Text) (s : Step) (own : stepOfText? path name = .ok s) :
        ∃ name, isElementName name = true ∧ s = .named name := by
      rw [stepOfText?] at own
      split at own
      · next plain => exact ⟨_, plain, (Except.ok.inj own).symm⟩
      · cases own
    have steps := forall₂_of_mapM h
    refine ⟨fun nothing => ?_, fun s mem => ?_⟩
    · rw [nothing] at steps
      exact Text.of_mem_splitOn.1 (List.forall₂_nil_right_iff.1 steps)
    · obtain ⟨name, -, own⟩ := exists_of_mem_right steps mem
      exact step name s own

/-- In what a named step creates, the next one finds nothing, for it has no children. -/
theorem fresh_of_named {route : Route} (h : route.AllNamed) : route.IsChain Fresh := by
  induction route with
  | nil => exact .nil
  | cons s route ih =>
    rw [Route.AllNamed, List.forall_mem_cons] at h
    refine List.isChain_cons.2 ⟨fun s' _ => ?_, ih h.2⟩
    obtain ⟨name, -, rfl⟩ := h.1
    exact fresh_named name s'

/-- What named steps create is legible. -/
theorem legible_create_of_named {route : Route} (h : route.AllNamed) :
    ∀ s ∈ route, s.create.Legible := by
  intro s hs
  obtain ⟨name, plain, rfl⟩ := h s hs
  exact Fields.legible_named (plainName_of_isElementName plain)

/-! ## Faithful updates -/

theorem mem_of_mem_written {fields : Fields} {v : Text × Text} (h : v ∈ fields.written) :
    ∃ field ∈ fields.entries, field.1 = v.1 := by
  obtain ⟨⟨name, scalar⟩, mem, written⟩ := List.mem_filterMap.1 h
  obtain ⟨value, -, rfl⟩ := Option.map_eq_some_iff.1 written
  exact ⟨_, mem, rfl⟩

/-- Fields with names keep an element legible. -/
theorem legible_applied {fields : Fields}
    (names : ∀ field ∈ fields.entries, isElementName field.1 = true) (e : Element) (h : e.Legible) :
    (fields.applied e).Legible := by
  refine Fields.Legible.writeAll h fun v hv => ?_
  obtain ⟨field, mem, same⟩ := mem_of_mem_written hv
  rw [← same]
  exact plainName_of_isElementName (names field mem)

/-- **Faithful updates**: the text of an update is read as a document with the same prolog and
    epilog, whose root says what the edited tree says, layout apart.  The tree was edited and the
    text was cut and put together; that they agree needs legible trees, one byte-order mark at
    most, and markers that cannot be mistaken. -/
theorem parse_update {text path : Text} {d : Document} {route : Route} {fields : Fields}
    {settings : Settings} {markers : Nat → Text} {u : Updated} {root edited : Element}
    {arrival : Arrival} {count : Nat} (one : AtMostOneMark text) (parsed : Document.parse text = .ok d)
    (names : d.root.hasNames = true) (given : Route.ofText? path = .ok route)
    (fieldNames : ∀ field ∈ fields.entries, isElementName field.1 = true)
    (walked : findOrCreate d.root .root route = .ok (root, arrival))
    (written : writeFields root arrival.address fields = .ok (edited, count))
    (unmistakable : Unmistakable { d with root := edited } arrival.address markers)
    (done : update text route fields settings markers = .ok u) :
    ∃ d', Document.parse u.text = .ok d' ∧ d'.prolog = d.prolog ∧ d'.epilog = d.epilog ∧
      d'.root.gist = edited.gist := by
  have read := Document.read_of_parse one parsed
  obtain ⟨some_step, steps⟩ := of_ofText? given
  rw [findOrCreate_root d.root some_step] at walked
  cases walked
  obtain ⟨count', again⟩ := writeFields_follow d.root route fields
  rw [again] at written
  cases written
  -- the walk and the fields make up one change at the end of the route
  obtain ⟨g, grafted, rfl⟩ := graft_of_update parsed some_step done
  cases route with
  | nil => exact absurd rfl some_step
  | cons s route =>
    obtain ⟨r, s', rest, p, a, front, t, back, a', whole, leads, stepped, changed, site⟩ :=
      exists_site read fields.applied (fresh_of_named steps)
    have there := Element.below?_of_changeBelow? leads.below? changed
    -- the edited tree can be written and read: it was legible, and only names that are names came
    have legible := legible_changeEnd (read.legible names) (legible_create_of_named steps)
      (legible_applied fieldNames)
    obtain ⟨root', d', regrafted, parsed', prolog, epilog, bare, -⟩ :=
      parse_graft read legible grafted site there stepped.children unmistakable
    refine ⟨d', parsed', prolog, epilog, ?_⟩
    rw [Element.gist_of_bare bare]
    exact regrafted.gist there stepped.children

namespace Sample

/-- The way to a new element in the child of the small document. -/
def route : Route := [.named ['b'], .named ['c']]

/-- One field. -/
def fields : Fields := .ofPairs [(['d'], .text ['x'])]

/-- The tree with the new element. -/
def grownRoot : Element := root.putChild 1 (child.append (Element.named ['c']).toNode)

/-- The tree with the field in the new element. -/
def filledRoot : Element :=
  root.putChild 1 (child.append (Element.append (Element.ofValue ['d'] ['x']).toNode
    (Element.named ['c'])).toNode)

/-- Where the new element is. -/
def filledArrival : Route.Arrival := ⟨⟨[1, 0]⟩, some 1, [['c']]⟩

/-- The text with the field in the new element. -/
def updated : Updated :=
  ⟨"<a>\n <b>\n     <c>\n         <d>x</d>\n     </c>\n </b>\n</a>".toList,
    ⟨true, [['c']], some ['c'], some ⟨2, 2⟩⟩⟩

theorem ofText?_route : Route.ofText? "b/c".toList = .ok route := by with_unfolding_all rfl

theorem hasNames_root : root.hasNames = true := by with_unfolding_all rfl

theorem names_fields : ∀ field ∈ fields.entries, isElementName field.1 = true := by
  intro field mem
  obtain rfl := List.mem_singleton.1 mem
  with_unfolding_all rfl

theorem findOrCreate_route : findOrCreate root .root route = .ok (grownRoot, filledArrival) := by with_unfolding_all rfl

theorem writeFields_grownRoot :
    writeFields grownRoot filledArrival.address fields = .ok (filledRoot, 1) := by with_unfolding_all rfl

theorem update_text : update text route fields .standard markers = .ok updated := by decide +kernel

theorem unmistakable_filledRoot :
    Unmistakable { document with root := filledRoot } filledArrival.address markers := by
  intro n _
  refine ⟨by unfold markers; decide, fun site parent found there _ => ?_⟩
  obtain rfl : (⟨⟨[1]⟩, 0⟩ : Site) = site := Except.ok.inj (Eq.trans (by with_unfolding_all rfl) found)
  obtain rfl : child.append (Element.append (Element.ofValue ['d'] ['x']).toNode
    (Element.named ['c'])).toNode = parent := Option.some.inj (Eq.trans (by with_unfolding_all rfl) there)
  unfold Text.StandsOnce
  with_unfolding_all rfl

end Sample

/-- A field in a new element of the small document. -/
theorem parse_update_filledRoot :
    AtMostOneMark Sample.text ∧ Document.parse Sample.text = .ok Sample.document ∧
    Sample.root.hasNames = true ∧ Route.ofText? "b/c".toList = .ok Sample.route ∧
    (∀ field ∈ Sample.fields.entries, isElementName field.1 = true) ∧
    ∃ u d', update Sample.text Sample.route Sample.fields .standard Sample.markers = .ok u ∧
      Document.parse u.text = .ok d' ∧ d'.prolog = [] ∧ d'.epilog = [] ∧
      d'.root.gist = Sample.filledRoot.gist := by
  obtain ⟨d', parsed, prolog, epilog, gist⟩ := parse_update (by decide) Sample.parse_text
    Sample.hasNames_root Sample.ofText?_route Sample.names_fields Sample.findOrCreate_route
    Sample.writeFields_grownRoot Sample.unmistakable_filledRoot Sample.update_text
  exact ⟨by decide, Sample.parse_text, Sample.hasNames_root, Sample.ofText?_route,
    Sample.names_fields, _, d', Sample.update_text, parsed, prolog, epilog, gist⟩

end XmlGraft
