/-
  Refusals — why an update does not come about.

  On its way an update resolves addresses, goes up to an element that was read, and cuts the print
  of an element into lines.  Each of these could fail, and none of them does: the walk arrives at an
  element, the edited tree still tells where it was read, and a print is cut at characters.  What is
  left are four reasons, which are checked one after the other.

  1. **Sites** (`exists_site_of_provenance`): in an edited tree, every element but the root stands
     in one whose parent was read; that element is pristine exactly when the target is.  So the
     graft may look at the one for the other.

  2. **Markers** (`firstPlaced_eq_none_iff`): no marker is taken when each of them stands in the
     source or not once in the marked document.

  3. **Units** (`Settings.unit_cases`): the settings hold a literal of a unit, or they do not.

  4. **Grafts** (`graft_eq_error_iff`) and **updates** (`update_eq_error_iff`): the reasons that are
     left, each checked after those before it.  The statement is an equivalence, so it tells of
     successes as well: an update with none of these reasons comes about.

  The conditions are put in terms of the text, the route, the settings and the supply, and each
  supposes that those before it do not hold.  So the failure that is told is the first one there is
  a reason for.  What the proofs rest on most is the provenance of the edited tree: it alone
  excludes that the way up from the target ends at nothing.
-/
import XmlGraft.Proofs.Edit.Provenance
import XmlGraft.Proofs.Graft.Updates

namespace XmlGraft

open Markup

/-! ## Sites -/

/-- What is pristine is pristine all the way down. -/
theorem Markup.Element.isPristine_within {e x : Element} (h : e.isPristine = true)
    (mem : x ∈ e.within) : x.isPristine = true := by
  have all : ∀ n : Node, n.isPristine = true → ∀ x ∈ n.within, x.isPristine = true := by
    -- for nodes, since the recursion goes through lists of them
    intro n
    induction n using Node.induct with
    | element tag children ih =>
      intro pristine x mem
      rw [Node.within, List.mem_cons] at mem
      rcases mem with rfl | mem
      · exact pristine
      · rw [Node.isPristine, Bool.and_eq_true] at pristine
        obtain ⟨n, child, inside⟩ := mem_allWithin.1 mem
        exact ih n child (allPristine_mem pristine.2 n child) x inside
    | text raw | comment raw | other markup => exact fun _ => List.forall_mem_nil _
  exact all e.toNode h x mem

/-- What is pristine was read. -/
theorem Markup.Element.isSome_origin_of_isPristine {e : Element} (h : e.isPristine = true) :
    e.tag.origin.isSome = true := by
  rw [isPristine, toNode, Node.isPristine, Tag.isPristine] at h
  simp only [Bool.and_eq_true] at h
  exact h.1.1.1

namespace Graft

/-- **The way up from an element** comes to one whose parent was read: at once, or from an element that
    stands in one that was not read. -/
theorem exists_siteAbove? {root : Element} (located : root.isLocated = true) (p : List Nat) (i : Nat)
    {t : Element} (there : root.below? (p ++ [i]) = some t) :
    ∃ q j rest parent, p ++ [i] = q ++ j :: rest ∧
      siteAbove? root (p ++ [i]).reverse = some ⟨⟨q⟩, j⟩ ∧
      root.below? q = some parent ∧ parent.isLocated = true ∧
      (rest = [] ∨ ∃ a, root.below? p = some a ∧ a.isLocated = false) := by
  induction p using List.reverseRecOn generalizing i t with
  | nil => exact ⟨[], i, [], root, rfl, by simp [siteAbove?, Element.at?, Element.below?, located], rfl,
      located, .inl rfl⟩
  | append_singleton p j ih =>
    rw [Element.below?_append, Option.bind_eq_some_iff] at there
    obtain ⟨a, found, -⟩ := there
    have at_ : root.at? ⟨p ++ [j]⟩ = some a := found
    have reverse : (p ++ [j] ++ [i]).reverse = i :: (p ++ [j]).reverse := by simp
    rw [reverse, siteAbove?]
    simp only [List.reverse_reverse, at_, Option.any_some]
    cases read : a.isLocated with
    -- its parent was read, so the way up ends here
    | true => exact ⟨p ++ [j], i, [], a, rfl, rfl, found, read, .inl rfl⟩
    | false =>
      obtain ⟨q, k, rest, parent, whole, site, there, located', -⟩ := ih j found
      exact ⟨q, k, rest ++ [i], parent, by rw [whole]; simp, by simpa using site, there, located',
        .inr ⟨a, found, read⟩⟩

/-- **Every target below the root has a site**, and the element there is pristine exactly when the
    target is: what stands in an element that was not read is not pristine, nor is that element. -/
theorem exists_site_of_provenance {d : Document} {root : Element} (provenance : Provenance d root)
    {p : List Nat} {i : Nat} {t : Element} (there : root.below? (p ++ [i]) = some t) :
    ∃ q front element back parent anchor,
      site? root ⟨p ++ [i]⟩ = .ok ⟨⟨q⟩, front.length⟩ ∧ root.below? q = some parent ∧
      parent.children = front ++ Element.toNode element :: back ∧ parent.position? = some anchor ∧
      element.isPristine = t.isPristine := by
  obtain ⟨q, j, rest, parent, whole, site, found, located, direct⟩ :=
    exists_siteAbove? provenance.located p i there
  obtain ⟨anchor, position⟩ := Option.isSome_iff_exists.1 located
  have here : root.at? ⟨p ++ [i]⟩ = some t := there
  have below := there
  rw [whole, Element.below?_append, found, Option.bind_some] at below
  obtain ⟨front, element, back, children, rfl, inside⟩ := Element.below?_cons.1 below
  refine ⟨q, front, element, back, parent, anchor, ?_, found, children, position, ?_⟩
  · rw [site?, here, Option.isNone_some, if_neg Bool.false_ne_true, site]
  · rw [Bool.eq_iff_iff]
    constructor
    · -- inside something pristine everything is
      exact fun pristine => Element.isPristine_within pristine (Element.mem_within_of_below? inside)
    · intro pristine
      rcases direct with rfl | ⟨a, above, unread⟩
      · obtain rfl := Option.some.inj inside
        exact pristine
      · -- a pristine target was read, and so were all elements around it
        have within : t ∈ a.within := by
          rw [Element.below?_append, above, Option.bind_some] at there
          exact Element.mem_within_of_below? there
        have read := (provenance.located_iff t (Element.mem_within_of_below? there)).2
          (Element.isSome_origin_of_isPristine pristine)
        rw [provenance.around a (Element.mem_within_of_below? above) t within read] at unread
        cases unread

/-! ## Markers -/

/-- **A marker is not taken** when the source holds it, or when it is not counted once where it
    was put. -/
theorem placed?_eq_none_iff {source replacement marker : Text} {marked : Text → Text} :
    placed? source marked replacement marker = none ↔
      source.contains marker = true ∨ Text.occurrences marker (marked marker) ≠ 1 := by
  unfold placed?
  split
  · next held => exact iff_of_true rfl (.inl held)
  · next fresh =>
    split
    · next once => exact iff_of_false (by simp) (by simp [fresh, once])
    · next other => exact iff_of_true rfl (.inr other)

/-- **No marker is taken** when none of those that are tried is good.  The bound on the number of
    tries is the only thing that ends the search otherwise. -/
theorem firstPlaced_eq_none_iff {place? : Text → Option Text} {markers : Nat → Text} {n left : Nat} :
    (firstPlaced place? markers n left).1 = none ↔
      ∀ k, n ≤ k → k < n + left → place? (markers k) = none := by
  induction left generalizing n with
  | zero => exact iff_of_true rfl fun k _ _ => by omega
  | succ left ih =>
    rw [firstPlaced]
    cases first : place? (markers n) with
    | some text =>
      -- this one is good, so not all are bad
      refine iff_of_false (by simp) fun none => ?_
      rw [none n (Nat.le_refl n) (by omega)] at first
      cases first
    | none =>
      simp only
      rw [ih]
      constructor
      · intro rest k le lt
        rcases Nat.eq_or_lt_of_le le with rfl | more
        · exact first
        · exact rest k more (by omega)
      · exact fun all k le lt => all k (by omega) (by omega)

end Graft

/-! ## Units -/

/-- **A literal of an indent unit**: a run, not empty, of spaces alone or of tabs alone. -/
def IndentUnit.Literal (t : Text) : Prop :=
  t ≠ [] ∧ ((∀ c ∈ t, c = ' ') ∨ ∀ c ∈ t, c = '\t')

theorem IndentUnit.isSome_ofText?_iff {t : Text} : (ofText? t).isSome = true ↔ Literal t := by
  unfold ofText? Literal
  split
  · next rest => simp
  · next rest => simp
  · next not_space not_tab =>
    refine iff_of_false (by simp) ?_
    rintro ⟨some_char, all⟩
    obtain ⟨c, rest, rfl⟩ := List.exists_cons_of_ne_nil some_char
    rcases all with all | all
    · exact not_space rest (by rw [all c List.mem_cons_self])
    · exact not_tab rest (by rw [all c List.mem_cons_self])

/-- The settings give a unit exactly when they hold a literal of one. -/
theorem Settings.unit_cases (s : Settings) :
    (IndentUnit.Literal s.indentUnit ∧ ∃ unit, s.unit = .ok unit) ∨
      (¬ IndentUnit.Literal s.indentUnit ∧ s.unit = .error (.badUnit s.indentUnit)) := by
  rw [← IndentUnit.isSome_ofText?_iff, unit, unit?]
  cases IndentUnit.ofText? s.indentUnit with
  | none => exact .inr ⟨by simp, rfl⟩
  | some unit => exact .inl ⟨rfl, unit, rfl⟩

/-! ## Grafts -/

namespace Graft

/-- **Why a graft fails** at a site below a parent that was read: the unit is none, or the element changed
    and no marker is good. -/
theorem graft_eq_error_iff {d : Document} {target : Address} {s : Settings} {markers : Nat → Text}
    {p : List Nat} {front back : List Node} {parent element : Element} {anchor : Position}
    {fault : GraftFault} (site : site? d.root target = .ok ⟨⟨p⟩, front.length⟩)
    (found : d.root.below? p = some parent)
    (children : parent.children = front ++ element.toNode :: back)
    (located : parent.position? = some anchor) :
    graft d target s markers = .error fault ↔
      (¬ IndentUnit.Literal s.indentUnit ∧ fault = .settings (.badUnit s.indentUnit)) ∨
      (IndentUnit.Literal s.indentUnit ∧ element.isPristine = false ∧
        (∀ n < 8, d.source.text.contains (markers n) = true ∨
          Text.occurrences (markers n) (marked d ⟨⟨p⟩, front.length⟩ parent (markers n)) ≠ 1) ∧
        fault = .noMarker 8) := by
  rw [graft, graftCounted]
  rcases s.unit_cases with ⟨literal, unit, valid⟩ | ⟨none, invalid⟩
  · simp only [valid, site, atSite_eq found children located, literal, not_true_eq_false, false_and,
      false_or, true_and]
    cases pristine : element.isPristine with
    | true => simp
    | false =>
      rw [marked_eq d p children, if_neg Bool.false_ne_true]
      -- all that is left to fail is the search for a marker
      generalize hplace : placed? d.source.text
        (mark d ⟨p⟩ (cutLayout front ++ element.toNode :: back) (cutLayout front).length)
        ((Surroundings.of d s unit anchor).replacement element back.isEmpty) = place?
      have refused : (firstPlaced place? markers 0 maxAttempts).1 = none ↔ _ :=
        firstPlaced_eq_none_iff
      rw [← hplace] at refused
      simp only [Nat.zero_le, Nat.zero_add, true_implies, placed?_eq_none_iff] at refused
      rw [hplace] at refused
      simp only [true_and]
      rw [← show maxAttempts = 8 from rfl, ← refused]
      generalize firstPlaced place? markers 0 maxAttempts = outcome
      obtain ⟨_ | text, drawn⟩ := outcome
      · simp [eq_comm]
      · simp
  · simp only [invalid, none, not_false_eq_true, true_and, false_and, or_false, Except.error.injEq,
      eq_comm]

end Graft

/-! ## Updates -/

/-- **Why an update is refused**; each reason supposes that those before it do not hold. -/
inductive Refused (text : Text) (route : Route) (fields : Fields) (settings : Settings)
    (markers : Nat → Text) : Failure → Prop
  /-- The text is no document. -/
  | document {error : Markup.Error} : Document.parse text = .error error →
      Refused text route fields settings markers (.document none text error)
  /-- The route has no steps. -/
  | noSteps {d : Document} : Document.parse text = .ok d → route = [] →
      Refused text route fields settings markers (.target .noSteps)
  /-- The settings hold no indent unit. -/
  | badUnit {d : Document} : Document.parse text = .ok d → route ≠ [] →
      ¬ IndentUnit.Literal settings.indentUnit →
      Refused text route fields settings markers (.settings (.badUnit settings.indentUnit))
  /-- The target changed, and each of eight markers stands in the source or does not stand once in the
      document with the marker in the place of the element that is laid out. -/
  | noMarker {d : Document} {root edited target parent : Element} {arrival : Route.Arrival}
      {count : Nat} {site : Graft.Site} : Document.parse text = .ok d →
      Route.findOrCreate d.root .root route = .ok (root, arrival) →
      writeFields root arrival.address fields = .ok (edited, count) →
      IndentUnit.Literal settings.indentUnit →
      edited.at? arrival.address = some target → target.isPristine = false →
      Graft.site? edited arrival.address = .ok site → edited.at? site.parent = some parent →
      (∀ n < 8, text.contains (markers n) = true ∨ Text.occurrences (markers n)
        (Graft.marked { d with root := edited } site parent (markers n)) ≠ 1) →
      Refused text route fields settings markers (.noMarker 8)

/-- A walk arrives below the root. -/
theorem Route.indices_ne_nil {route : Route} (some_step : route ≠ []) (depth : Nat) (e : Element) :
    (follow depth e route).2.indices ≠ [] := by
  obtain ⟨s, route, rfl⟩ := List.exists_cons_of_ne_nil some_step
  cases found : e.findChild? s.accepts with
  | some child =>
    rw [indices_of_some found]
    exact List.cons_ne_nil _ _
  | none =>
    rw [indices_of_none found]
    exact List.cons_ne_nil _ _

/-- An update of a document along a route is the graft of the change at its end. -/
theorem update_eq {text : Text} {d : Document} (parsed : Document.parse text = .ok d) {route : Route}
    (some_step : route ≠ []) (fields : Fields) (settings : Settings) (markers : Nat → Text) :
    update text route fields settings markers
      = finishUpdate { d with root := Route.changeEnd fields.applied route d.root }
        ⟨(Route.follow 0 d.root route).2.indices⟩ (Route.follow 0 d.root route).2.created settings
        markers := by
  obtain ⟨count, written⟩ := writeFields_follow d.root route fields
  rw [update, readDocument, parsed]
  simp only [bind, Except.bind, findOrCreate_root d.root some_step, asFailure, written]

/-- The last part of an update fails as its graft does. -/
theorem finishUpdate_eq_error_iff {d : Document} {target : Address} {created : List Text}
    {settings : Settings} {markers : Nat → Text} {failure : Failure} :
    finishUpdate d target created settings markers = .error failure ↔
      ∃ fault, graft d target settings markers = .error fault ∧ failure = .ofGraft fault := by
  rw [finishUpdate]
  cases graft d target settings markers with
  | ok g => simp
  | error fault => simp [eq_comm]

/-- **An update of a document along a route** fails for the two reasons that a graft has, since
    the walk and the fields cannot fail: a route with steps arrives at an element. -/
theorem refused_iff_of_parse {text : Text} (one : AtMostOneMark text) {d : Document}
    (parsed : Document.parse text = .ok d) {route : Route} (some_step : route ≠ []) (fields : Fields)
    (settings : Settings) (markers : Nat → Text) (failure : Failure) :
    update text route fields settings markers = .error failure ↔
      Refused text route fields settings markers failure := by
  have walked := findOrCreate_root d.root some_step
  obtain ⟨count, written⟩ := writeFields_follow d.root route fields
  have changed := Route.changeBelow?_follow fields.applied 0 d.root route
  obtain ⟨e, reached⟩ := Element.exists_below?_of_changeBelow? changed
  have there := Element.below?_of_changeBelow? reached changed
  rw [update_eq parsed some_step, finishUpdate_eq_error_iff]
  generalize hedited : Route.changeEnd fields.applied route d.root = edited at *
  generalize htrail : (Route.follow 0 d.root route).2 = trail at *
  -- the edited tree still tells where it was read, so the target has a site
  have provenance : Provenance d edited := by
    rw [← hedited]
    exact (Route.retains_changeEnd (fun x => Fields.retains_writeAll x _) route d.root).provenance one
      parsed
  obtain ⟨p, i, way⟩ : ∃ p i, trail.indices = p ++ [i] := by
    rw [← htrail]
    exact ⟨_, _, (List.dropLast_append_getLast (Route.indices_ne_nil some_step 0 d.root)).symm⟩
  have found := there
  rw [way] at found
  obtain ⟨q, front, element, back, parent, anchor, site, above, children, located, same⟩ :=
    Graft.exists_site_of_provenance provenance found
  rw [← way] at site
  have source : d.source.text = text := (Document.read_of_parse one parsed).source
  obtain ⟨grafted, hgrafted⟩ : ∃ d' : Document, d' = { d with root := edited } := ⟨_, rfl⟩
  have site' : Graft.site? grafted.root ⟨trail.indices⟩ = .ok ⟨⟨q⟩, front.length⟩ := by rwa [hgrafted]
  have above' : grafted.root.below? q = some parent := by rwa [hgrafted]
  have source' : grafted.source.text = text := by rw [hgrafted, source]
  rw [← hgrafted]
  constructor
  · -- from a failure to its reason
    rintro ⟨fault, failed, rfl⟩
    rcases (Graft.graft_eq_error_iff site' above' children located).1 failed with
      ⟨none, rfl⟩ | ⟨literal, dirty, refused, rfl⟩
    · exact .badUnit parsed some_step none
    · rw [source', hgrafted] at refused
      exact .noMarker parsed walked written literal there (by rw [← same, dirty]) site above refused
  · intro refused
    cases refused with
    | document here =>
      rw [parsed] at here
      cases here
    | noSteps _ none => exact absurd none some_step
    | badUnit _ _ none =>
      exact ⟨_, (Graft.graft_eq_error_iff site' above' children located).2 (.inl ⟨none, rfl⟩), rfl⟩
    | noMarker here walked' written' literal target dirty there' above'' refused =>
      -- there is one document, one edited tree and one site
      obtain rfl := Except.ok.inj (parsed.symm.trans here)
      obtain ⟨rfl, rfl⟩ := Prod.mk.inj (Except.ok.inj (walked.symm.trans walked'))
      obtain ⟨rfl, -⟩ := Prod.mk.inj (Except.ok.inj (written.symm.trans written'))
      obtain rfl := Except.ok.inj (site.symm.trans there')
      obtain rfl := Option.some.inj (Eq.trans above.symm above'')
      obtain rfl := Option.some.inj (Eq.trans there.symm target)
      refine ⟨.noMarker 8, (Graft.graft_eq_error_iff site' above' children located).2 (.inr ?_), rfl⟩
      rw [source', hgrafted]
      exact ⟨literal, by rw [same, dirty], refused, rfl⟩

/-- **An update fails for these reasons only**, and whenever there is one.  They exclude one
    another, so for each of them the failure is the one that it is listed with. -/
theorem update_eq_error_iff {text : Text} (one : AtMostOneMark text) (route : Route) (fields : Fields)
    (settings : Settings) (markers : Nat → Text) (failure : Failure) :
    update text route fields settings markers = .error failure ↔
      Refused text route fields settings markers failure := by
  cases parsed : Document.parse text with
  -- a text that is no document is refused before anything else is looked at
  | error error =>
    have fails : update text route fields settings markers = .error (.document none text error) := by
      rw [update, readDocument, parsed]
      rfl
    rw [fails]
    constructor
    · intro same
      obtain rfl := Except.error.inj same
      exact .document parsed
    · intro refused
      cases refused with
      | document here =>
        obtain rfl := Except.error.inj (parsed.symm.trans here)
        rfl
      | noSteps here | badUnit here | noMarker here =>
        rw [parsed] at here
        cases here
  | ok d =>
    by_cases some_step : route = []
    · subst some_step
      have fails : update text [] fields settings markers = .error (.target .noSteps) := by
        rw [update, readDocument, parsed]
        rfl
      rw [fails]
      constructor
      · intro same
        obtain rfl := Except.error.inj same
        exact .noSteps parsed rfl
      · intro refused
        cases refused with
        | document here =>
          rw [parsed] at here
          cases here
        | noSteps => rfl
        | badUnit _ steps => exact absurd rfl steps
        | noMarker _ walked => cases walked
    · exact refused_iff_of_parse one parsed some_step fields settings markers failure

/-- Where the source holds all markers, a changed element cannot be put in its place. -/
theorem update_eq_error_iff_held :
    AtMostOneMark Sample.text ∧
    update Sample.text Sample.route Sample.fields .standard (fun _ => ['b']) = .error (.noMarker 8) ∧
    Refused Sample.text Sample.route Sample.fields .standard (fun _ => ['b']) (.noMarker 8) := by
  have one : AtMostOneMark Sample.text := by decide
  have fails : update Sample.text Sample.route Sample.fields .standard (fun _ => ['b'])
      = .error (.noMarker 8) := by decide +kernel
  exact ⟨one, fails, (update_eq_error_iff one _ _ _ _ _).1 fails⟩

end XmlGraft
