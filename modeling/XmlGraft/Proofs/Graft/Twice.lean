/-
  Twice — an element that is grafted as it is, and once more.

  An element whose list of children was taken in hand counts as changed, so that a graft lays it out
  anew.  Laid out it is what it was, on lines of its own, and grafting it again should give the same
  text.  It does but in one place.  Before it puts its break, a graft drops a text of spaces before
  the element; a break that was put behind other text is no text of spaces when it is read, but the
  end of that text, and stays.

  1. **Taken markers** (`exists_graft`): where one of the markers is taken, a graft gives a text.

  2. **Touched elements** (`exists_graft_touched`): that text is the parent's tags around its new
     children, in the text that stays, and it is read as such (`exists_parse_regraft`).

  3. **The break before it** (`writtenAll_regraft_twins`): of the new children, the second graft
     leaves out the break and puts it back, but not where the break goes on in a text.

  4. **The way** (`Leads.regraft`): the route leads to the laid element, in the place of the old
     one.

  5. **The second time** (`graft_touched_again`): the text stays as it is, unless the element stands
     directly behind a text that holds more than spaces.  There one more break is added each time
     (`not_graft_touched_again_behindText`).

  Settings that look at the document are left out: a unit that is inferred and a line ending that is
  the dominant one may be others for the new text.  With both given, the surroundings of the element
  are the same the second time, for its parent stands where it stood and its own line is not looked
  at.
-/
import XmlGraft.Proofs.Graft.Again
import XmlGraft.Proofs.Graft.Anchors
import XmlGraft.Proofs.Graft.Settled
import XmlGraft.Proofs.Edit.RoundTrip

namespace XmlGraft

open Markup

namespace Graft

/-! ## Taken markers -/

/-- **A supply with a marker that is taken**, none of which can be mistaken. -/
structure Served (d : Document) (target : Address) (markers : Nat → Text) : Prop where
  unmistakable : Unmistakable d target markers
  taken : ∃ n < maxAttempts, ∀ site parent, site? d.root target = .ok site →
    d.root.at? site.parent = some parent →
    (placed? d.source.text (marked d site parent) [] (markers n)).isSome = true

/-- A single marker, whenever one is drawn, that is taken at the site. -/
theorem served_constantly {d : Document} {target : Address} {m : Text} {site : Site} {parent : Element}
    (found : site? d.root target = .ok site) (there : d.root.at? site.parent = some parent)
    (plain : PlainMarker m) (taken : (placed? d.source.text (marked d site parent) [] m).isSome = true)
    (once : Text.StandsOnce m (marked d site parent m)) : Served d target fun _ => m := by
  -- there is one site and one parent, so what holds there holds of all
  have only (site' : Site) (parent' : Element) (found' : site? d.root target = .ok site')
      (there' : d.root.at? site'.parent = some parent') : site' = site ∧ parent' = parent := by
    obtain rfl := Except.ok.inj (found'.symm.trans found)
    exact ⟨rfl, Option.some.inj (there'.symm.trans there)⟩
  constructor
  · refine fun _ _ => ⟨plain, fun site' parent' found' there' _ => ?_⟩
    obtain ⟨rfl, rfl⟩ := only site' parent' found' there'
    exact once
  · refine ⟨0, by decide, fun site' parent' found' there' => ?_⟩
    obtain ⟨rfl, rfl⟩ := only site' parent' found' there'
    exact taken

/-- Which marker is taken does not depend on the replacement. -/
theorem isSome_placed? (replacement : Text) {source marker : Text} {marked : Text → Text}
    (h : (placed? source marked [] marker).isSome = true) :
    (placed? source marked replacement marker).isSome = true := by
  unfold placed? at h ⊢
  split
  · next known => rw [if_pos known] at h; exact h
  · next fresh =>
    rw [if_neg fresh] at h
    split
    · rfl
    · next other => rw [if_neg other] at h; exact h

/-- One of the markers that are tried is taken. -/
theorem exists_firstPlaced {place? : Text → Option Text} {markers : Nat → Text} {n left k : Nat}
    (from_ : n ≤ k) (tried : k < n + left) (taken : (place? (markers k)).isSome = true) :
    ∃ text drawn, firstPlaced place? markers n left = (some text, drawn) := by
  induction left generalizing n with
  | zero => omega
  | succ left ih =>
    rw [firstPlaced]
    split
    · next text _ => exact ⟨text, n + 1, rfl⟩
    · next refused =>
      have other : n ≠ k := by
        rintro rfl
        rw [refused] at taken
        cases taken
      exact ih (by omega) (by omega)

section

variable {d : Document} {target : Address} {s : Settings} {unit : IndentUnit} {markers : Nat → Text}
  {p : List Nat} {front back : List Node} {parent element : Element} {anchor : Position}

/-- **Where a marker is taken, a graft of a changed element gives a text.**  The unit and the
    anchor are given, so nothing else can fail. -/
theorem exists_graft (valid : s.unit = .ok unit)
    (site : site? d.root target = .ok ⟨⟨p⟩, front.length⟩) (found : d.root.below? p = some parent)
    (children : parent.children = front ++ element.toNode :: back)
    (located : parent.position? = some anchor) (changed : element.isPristine = false)
    (served : Served d target markers) :
    ∃ g, graft d target s markers = .ok g ∧ g.changed = (g.text != d.source.text) := by
  obtain ⟨n, tried, taken⟩ := served.taken
  have good := taken _ _ site found
  rw [marked_eq d p children] at good
  have stays := isSome_placed? ((Surroundings.of d s unit anchor).replacement element back.isEmpty) good
  obtain ⟨text, drawn, placed⟩ := exists_firstPlaced (Nat.zero_le n) (by omega : n < 0 + maxAttempts) stays
  refine ⟨⟨text, text != d.source.text, some element.name, some anchor⟩, ?_, rfl⟩
  rw [graft, graftCounted, valid]
  simp only [site]
  rw [atSite_eq found children located, changed, if_neg Bool.false_ne_true, placed]

end

/-! ## Touched elements -/

/-- **The surroundings of what stands behind a text**, when the settings leave nothing to the document. -/
def surroundingsBehind (s : Settings) (unit : IndentUnit) (before : Text) : Surroundings where
  base := Text.leadingBlanks (lastLine (withoutMark before))
  unit := unit
  terminator := s.lineEnding.terminator []

theorem proper_surroundingsBehind (s : Settings) (unit : IndentUnit) (before : Text) :
    (surroundingsBehind s unit before).Proper :=
  ⟨terminator_cases _ _, fun _ hc => List.mem_takeWhile_imp hc⟩

section

variable {text : Text} {d : Document} {s : Settings} {unit : IndentUnit} {q : List Nat}
  {front back : List Node} {a t root : Element} {left right : Text}

/-- **A touched element is the site** of its graft.  Touching flags the list of its children, so
    it is not pristine; its parent was read, and the way up ends there. -/
theorem site?_touched (read : d.Read text) (found : d.root.below? q = some a)
    (children : a.children = front ++ t.toNode :: back)
    (touched : d.root.editAt? ⟨q ++ [front.length]⟩ .touch = some root) :
    d.root.changeBelow? (fun _ => ⟨a.tag, front ++ (t.editChildren id).toNode :: back⟩) q = some root ∧
      site? root ⟨q ++ [front.length]⟩ = .ok ⟨⟨q⟩, front.length⟩ := by
  have child : d.root.below? (q ++ [front.length]) = some t := by
    rw [Element.below?_append, found, Option.bind_some, Element.below?_child children]
    rfl
  have changed : d.root.changeBelow? (fun _ => t.editChildren id) (q ++ [front.length]) = some root := by
    have at_ : d.root.at? ⟨q ++ [front.length]⟩ = some t := child
    rw [Element.editAt?, at_] at touched
    exact touched
  exact site?_changed (f := fun _ => t.editChildren id) read found children changed

/-- **What a graft of a touched element gives**: the element laid out, in the text that stays.
    The settings name a unit and a line ending, so neither is taken from the text and both are the
    same the second time. -/
theorem exists_graft_touched (one : AtMostOneMark text) (parsed : Document.parse text = .ok d)
    (valid : s.unit = .ok unit) (fixed : s.inferUnit = false) (ending : s.lineEnding ≠ .auto)
    (found : d.root.below? q = some a) (children : a.children = front ++ t.toNode :: back)
    (around : Element.Around left right d.root q)
    (touched : d.root.editAt? ⟨q ++ [front.length]⟩ .touch = some root) {markers : Nat → Text}
    (served : Served { d with root } ⟨q ++ [front.length]⟩ markers) :
    ∃ g, graft { d with root } ⟨q ++ [front.length]⟩ s markers = .ok g ∧
      g.changed = (g.text != text) ∧
      g.text = d.prolog ++ (left ++ (a.tag.opening
        ++ writtenAll (regraft (surroundingsBehind s unit (d.prolog ++ left)) front (t.editChildren id) back)
        ++ a.tag.closing) ++ right) ++ d.epilog := by
  have read := Document.read_of_parse one parsed
  obtain ⟨changed, site⟩ := site?_touched read found children touched
  obtain ⟨located, base⟩ := exists_anchor one parsed found around
  have there := Element.below?_of_changeBelow? found changed
  have dirty : (t.editChildren id).isPristine = false := by
    rw [Element.isPristine, Element.editChildren, Element.toNode, Node.isPristine, Tag.isPristine]
    simp
  obtain ⟨g, done, said⟩ := exists_graft (d := { d with root }) valid site there rfl located dirty served
  refine ⟨g, done, by rw [said, ← read.source], ?_⟩
  have context : ∀ f e', root.changeBelow? f q = some e' →
      e'.written = left ++ (f ⟨a.tag, front ++ (t.editChildren id).toNode :: back⟩).written ++ right :=
    fun f e' again => ((around.changed changed).changed again).written
      (Element.below?_of_changeBelow? there again)
  -- the settings fix the unit and the line end, and the base stands before the element
  have surroundings : Surroundings.of { d with root } s unit
      (.behind (withoutMark (d.prolog ++ left))) = surroundingsBehind s unit (d.prolog ++ left) := by
    have terminator (x : Text) : s.lineEnding.terminator x = s.lineEnding.terminator [] := by
      cases e : s.lineEnding with
      | auto => exact absurd e ending
      | lf => rfl
      | crlf => rfl
    rw [Surroundings.of, surroundingsBehind, terminator d.source.text, fixed, base]
    rfl
  rcases graft_cases done site there rfl served.unmistakable context with
    ⟨pristine, -⟩ | ⟨-, unit', anchor, valid', located', -, -, result⟩
  · rw [pristine] at dirty
    cases dirty
  · -- the unit and the anchor of the graft are these
    rw [valid] at valid'
    obtain rfl := Except.ok.inj valid'
    have same : some anchor = some (Position.behind (withoutMark (d.prolog ++ left))) :=
      located'.symm.trans located
    obtain rfl := Option.some.inj same
    rw [result, surroundings, writtenAll_regraft]
    simp only [List.append_assoc]

/-- **The text of such a graft is read as a twin** of the tree with the new children.  The text
    and the tree are both known here, since the target is an element that was read. -/
theorem exists_parse_regraft (read : d.Read text) (names : d.root.hasNames = true)
    (found : d.root.below? q = some a) (children : a.children = front ++ t.toNode :: back)
    (around : Element.Around left right d.root q) {S : Surroundings} (proper : S.Proper) {out : Text}
    (out_eq : out = d.prolog ++ (left ++ (a.tag.opening
      ++ writtenAll (regraft S front (t.editChildren id) back) ++ a.tag.closing) ++ right) ++ d.epilog) :
    ∃ grafted d', d.root.changeBelow?
        (fun _ => ⟨a.tag, regraft S front (t.editChildren id) back⟩) q = some grafted ∧
      Document.parse out = .ok d' ∧ d'.prolog = d.prolog ∧ d'.epilog = d.epilog ∧
      Twins [d'.root.toNode] [grafted.toNode] ∧ AtMostOneMark out := by
  obtain ⟨grafted, changed⟩ := Element.exists_changeBelow? found
    fun _ => ⟨a.tag, regraft S front (t.editChildren id) back⟩
  have written : grafted.written = left ++ (a.tag.opening
      ++ writtenAll (regraft S front (t.editChildren id) back) ++ a.tag.closing) ++ right := by
    rw [(around.changed changed).written (Element.below?_of_changeBelow? found changed), Element.written,
      Element.toNode, written_of_ne_nil (by simp [regraft])]
  have legible : grafted.Legible := by
    obtain ⟨sound, own, chain, below⟩ :=
      Element.legible_iff.1 (Element.every_below? (read.legible names) found)
    rw [children] at chain below
    -- touching changes a flag, which does not count for what is legible
    have below' : ∀ n ∈ front ++ (t.editChildren id).toNode :: back, n.Every Node.Legible := by
      rw [List.forall_mem_append, List.forall_mem_cons] at below ⊢
      obtain ⟨-, -, chain_t, below_t⟩ := Element.legible_iff.1 below.2.1
      exact ⟨below.1, Fields.legible_withChildren below.2.1 true chain_t below_t, below.2.2⟩
    obtain ⟨chain', new⟩ := legible_regraft proper (Element.isChain_replace chain) below'
    exact (read.legible names).changeBelow? found (Element.legible_iff.2 ⟨sound, own, chain', new⟩) changed
  obtain ⟨f, prolog, epilog⟩ := read.frame
  obtain ⟨d', parsed, prolog', epilog', twins, one⟩ := Document.parse_twins f legible
  rw [prolog, epilog, written, ← out_eq] at parsed one
  exact ⟨grafted, d', changed, parsed, by rw [prolog', prolog], by rw [epilog', epilog], twins, one⟩

/-- **The parent, as it is read**: its tags around the twins of the new children, cut at the laid
    element, which is the one to be grafted again. -/
theorem exists_parent_read {read_root grafted : Element} {S : Surroundings} {e : Element}
    (twins : Twins [read_root.toNode] [grafted.toNode])
    (there : grafted.below? q = some ⟨a.tag, regraft S front e back⟩) :
    ∃ b front' t' back', read_root.below? q = some b ∧ b.children = front' ++ Element.toNode t' :: back' ∧
      b.tag.opening = a.tag.opening ∧ b.tag.closing = a.tag.closing ∧
      Twins front' (addSpaces (cutLayout front) (S.margin.breakAt 0)) ∧
      Twins [t'.toNode] [(S.margin.laidElement 0 e).toNode] ∧ Twins back' (withLastBreak S back) := by
  obtain ⟨b, found, own⟩ := Element.exists_below?_of_twins twins there
  obtain ⟨-, -, inside, tags⟩ := own.of_element
  obtain ⟨opening, closing⟩ := tags (by simp [regraft])
  obtain ⟨front', rest, children, before, rest_twins⟩ := inside.of_append
  obtain ⟨t', back', rfl, laid, behind⟩ := rest_twins.exists_element
  exact ⟨b, front', t', back', found, children, opening, closing, before, laid, behind⟩

end

/-! ## The break before it -/

/-- Of a list with a last node, that node goes if it is layout. -/
theorem cutLayout_concat (ns : List Node) (n : Node) :
    cutLayout (ns ++ [n]) = if n.isLayout then ns else ns ++ [n] := by
  rw [cutLayout, List.getLast?_concat, Option.any_some, List.dropLast_concat]

theorem addSpaces_concat_text (ns : List Node) (raw spaces : Text) :
    addSpaces (ns ++ [.text raw]) spaces = ns ++ [.text (raw ++ spaces)] := by
  rw [addSpaces, List.getLast?_concat, List.dropLast_concat]

theorem addSpaces_of_last {ns : List Node} (h : ∀ n ∈ ns.getLast?, n.isText = false) (spaces : Text) :
    addSpaces ns spaces = ns ++ [.text spaces] := by
  rcases addSpaces_cases ns spaces with ⟨before, raw, rfl, -⟩ | ⟨-, e⟩
  · exact absurd (h (.text raw) (by simp)) (by simp [Node.isText])
  · exact e

/-- **The break before a laid element is left out and put back**, unless it goes on in a text that
    holds more than spaces. -/
theorem writtenAll_cutLayout_addSpaces {front : List Node} {spaces : Text} (some_text : spaces ≠ [])
    (blank : Text.isSpaces spaces = true) (chain : front.IsChain Separate) :
    writtenAll (cutLayout (addSpaces (cutLayout front) spaces)) ++ spaces
        = writtenAll (addSpaces (cutLayout front) spaces) ↔
      ¬ ∃ raw, front.getLast? = some (.text raw) ∧ Text.isSpaces raw = false := by
  -- behind anything but text, the break is a text of its own
  have apart {ns : List Node} (last : ∀ n ∈ ns.getLast?, n.isText = false) :
      writtenAll (cutLayout (addSpaces ns spaces)) ++ spaces = writtenAll (addSpaces ns spaces) := by
    have layout : (Node.text spaces).isLayout = true := blank
    rw [addSpaces_of_last last, cutLayout_concat, if_pos layout, writtenAll_append, writtenAll_cons,
      writtenAll_nil, List.append_nil]
    rfl
  rcases List.eq_nil_or_concat' front with rfl | ⟨ns, n, rfl⟩
  · exact iff_of_true (apart (fun n hn => by cases hn)) (by simp)
  · rw [List.getLast?_concat, cutLayout_concat]
    obtain ⟨-, -, meet⟩ := List.isChain_append.1 chain
    cases text : n.isText with
    | false =>
      have content : n.isLayout = false := by
        cases n with
        | text raw => cases text
        | _ => rfl
      rw [content, if_neg Bool.false_ne_true]
      refine iff_of_true (apart fun m hm => ?_) ?_
      · rw [List.getLast?_concat] at hm
        cases hm
        exact text
      · rintro ⟨raw, same, -⟩
        cases same
        cases text
    | true =>
      cases n with
      | text raw =>
        cases layout : Text.isSpaces raw with
        | true =>
          have cut : (Node.text raw).isLayout = true := layout
          rw [cut, if_pos rfl]
          refine iff_of_true (apart fun m hm => ?_) ?_
          · -- no text stands next to the one that is cut off
            cases text' : m.isText with
            | false => rfl
            | true => cases meet m hm (.text raw) rfl text'
          · rintro ⟨raw', same, content⟩
            cases same
            rw [layout] at content
            cases content
        | false =>
          have kept : (Node.text raw).isLayout = false := layout
          have kept' : (Node.text (raw ++ spaces)).isLayout = false := by
            rw [Node.isLayout, Text.isSpaces_append, layout, Bool.false_and]
          rw [kept, if_neg Bool.false_ne_true, addSpaces_concat_text, cutLayout_concat, kept',
            if_neg Bool.false_ne_true]
          refine iff_of_false (fun same => ?_) (not_not_intro ⟨raw, rfl, layout⟩)
          exact some_text (List.append_right_eq_self.1 same)
      | _ => cases text

/-- Twins without the text of spaces at their end. -/
theorem twins_cutLayout {ns' ns : List Node} (h : Twins ns' ns) :
    Twins (cutLayout ns') (cutLayout ns) := by
  rcases List.eq_nil_or_concat' ns with rfl | ⟨ns, n, rfl⟩
  · cases h
    exact .nil
  · obtain ⟨front, back, rfl, before, own⟩ := h.of_append
    -- twins are texts of the same characters, so both are layout or neither is
    have layout : ∃ n', back = [n'] ∧ n'.isLayout = n.isLayout := by
      cases own with
      | leaf _ rest =>
        cases rest
        exact ⟨_, rfl, rfl⟩
      | element _ _ _ _ rest =>
        cases rest
        exact ⟨_, rfl, rfl⟩
    obtain ⟨n', rfl, same⟩ := layout
    rw [cutLayout_concat, cutLayout_concat, same]
    split
    · exact before
    · exact h

/-- **The new children of a parent, grafted again** as they were read, are written the same, unless the
    element stood directly behind a text that holds more than spaces. -/
theorem writtenAll_regraft_twins {S : Surroundings} (proper : S.Proper) {front back front' back' : List Node}
    {t t' : Element} (chain : front.IsChain Separate)
    (clean : (t.editChildren id).toNode.Every Node.CleanComment)
    (before : Twins front' (addSpaces (cutLayout front) (S.margin.breakAt 0)))
    (laid : Twins [t'.toNode] [(S.margin.laidElement 0 (t.editChildren id)).toNode])
    (behind : Twins back' (withLastBreak S back)) :
    writtenAll (regraft S front' (t'.editChildren id) back')
        = writtenAll (regraft S front (t.editChildren id) back) ↔
      ¬ ∃ raw, front.getLast? = some (.text raw) ∧ Text.isSpaces raw = false := by
  have again : S.margin.laidElement 0 (t'.editChildren id) = S.margin.laidElement 0 (t.editChildren id) := by
    obtain ⟨bare, -⟩ := laid.of_element
    exact laidElement_laidElement proper.margin clean bare
  -- behind the element there is something now, so that no last break is added
  have last : withLastBreak S back' = back' := by
    have some_node : (withLastBreak S back).length ≠ 0 := by
      rw [withLastBreak]
      cases back <;> simp
    rw [← behind.length_eq] at some_node
    cases back' with
    | nil => exact absurd rfl some_node
    | cons n ns => rfl
  have blank := isLayout_breakAt proper.margin 0
  have some_text : S.margin.breakAt 0 ≠ [] :=
    fun nothing => proper.margin.ne_nil (List.append_eq_nil_iff.1 nothing).1
  rw [← writtenAll_cutLayout_addSpaces some_text blank chain, regraft, regraft, writtenAll_append,
    writtenAll_append, writtenAll_cons, writtenAll_cons, again, last, behind.writtenAll_eq,
    writtenAll_addSpaces, (twins_cutLayout before).writtenAll_eq]
  exact List.append_left_inj _

end Graft

/-! ## The way -/

namespace Route

open Graft Markup.Element

/-- **A route resolves** when the walk along it creates nothing: each step found a child. -/
theorem exists_leads {depth : Nat} {e : Element} {route : Route}
    (h : (follow depth e route).2.created = []) :
    ∃ t, Leads route e (follow depth e route).2.indices t := by
  induction route generalizing depth e with
  | nil => exact ⟨e, .here⟩
  | cons s route ih =>
    cases found : e.findChild? s.accepts with
    | some child =>
      obtain ⟨i, c⟩ := child
      rw [follow, found] at h ⊢
      obtain ⟨t, leads⟩ := ih h
      exact ⟨t, .down found leads⟩
    | none =>
      rw [follow, found] at h
      cases h

/-- **A walk that leaves the tree as it is**, and creates nothing, was led by the route.  This is
    how the outcome of the program is turned into the relation that the proofs use. -/
theorem leads_of_findOrCreate {root : Element} {route : Route} {p : List Nat} (some_step : route ≠ [])
    (h : findOrCreate root .root route = .ok (root, ⟨⟨p⟩, none, []⟩)) :
    ∃ t, Leads route root p t := by
  rw [findOrCreate_root root some_step] at h
  obtain ⟨-, arrival⟩ := Prod.mk.inj (Except.ok.inj h)
  obtain ⟨address, -, created⟩ := Arrival.mk.inj arrival
  obtain rfl := Address.mk.inj address
  exact exists_leads created

/-- And a route that leads somewhere is walked like this. -/
theorem Leads.findOrCreate {root t : Element} {route : Route} {p : List Nat} (some_step : route ≠ [])
    (h : Leads route root p t) : Route.findOrCreate root .root route = .ok (root, ⟨⟨p⟩, none, []⟩) := by
  rw [findOrCreate_root root some_step, h.follow]

/-- **A route leads to the laid element**, in the tree with the new children of the parent.  No
    element comes before it that was not there, and laying out does not rename. -/
theorem Leads.regraft {root grafted a t : Element} {r : Route} {s : Step} {q : List Nat}
    {front back : List Node} (named : (r ++ [s]).AllNamed) (way : Leads r root q a)
    (children : a.children = front ++ t.toNode :: back) (accepted : s.accepts t = true)
    (first : ∀ x ∈ elements front, s.accepts x = false) (around : Surroundings)
    (changed : root.changeBelow?
      (fun _ => ⟨a.tag, Graft.regraft around front (t.editChildren id) back⟩) q = some grafted) :
    Leads (r ++ [s]) grafted
      (q ++ [(addSpaces (cutLayout front) (around.margin.breakAt 0)).length])
      (around.margin.laidElement 0 (t.editChildren id)) := by
  have elements_new := elements_regraft around front (t.editChildren id) back
  have laid : s.accepts (around.margin.laidElement 0 (t.editChildren id)) = true := by
    obtain ⟨name, -, rfl⟩ := named s (by simp)
    rw [Step.accepts_named, name_laidElement]
    rw [Step.accepts_named] at accepted
    exact accepted
  have steady := (traceable_of_named (f := id) (fun _ => rfl) named).steady
  -- the parent has the children that it had under all other names
  have others (m : Text) (other : m ≠ s.name) :
      (⟨a.tag, Graft.regraft around front (t.editChildren id) back⟩ : Element).child? m = a.child? m := by
    have unseen (x : Element) (h : s.accepts x = true) : ∀ y ∈ [x], y.name ≠ m := fun y hy => by
      rw [List.mem_singleton.1 hy, Step.name_of_accepts h]
      exact Ne.symm other
    refine child?_of_elements (elements front) [around.margin.laidElement 0 (t.editChildren id)]
      (elements back) ⟨[t], ?_, unseen t accepted⟩ ?_ (unseen _ laid)
    · rw [children, elements_append, elements_toNode]
      simp
    · rw [elements_new]
      simp
  obtain ⟨leads, -, -⟩ := way.changed changed steady rfl others
  have found : (⟨a.tag, Graft.regraft around front (t.editChildren id) back⟩ : Element).findChild? s.accepts
      = some ((addSpaces (cutLayout front) (around.margin.breakAt 0)).length,
        around.margin.laidElement 0 (t.editChildren id)) := by
    refine findChild?_eq_some_iff.2 ⟨_, withLastBreak around back, rfl, rfl, laid, fun x hx => ?_⟩
    rw [elements_addSpaces, elements_cutLayout] at hx
    exact first x hx
  exact leads_append.2 ⟨q, _, _, rfl, leads, .down found .here⟩

end Route

/-! ## The second time -/

/-- **Directly behind text** that holds more than spaces stands the element at a path. -/
def Markup.Element.FollowsText (root : Element) (p : List Nat) : Prop :=
  ∃ q i a raw, p = q ++ [i + 1] ∧ root.below? q = some a ∧ a.children[i]? = some (.text raw) ∧
    Text.isSpaces raw = false

/-- **What stands directly before the element**, told by its address and by a cut of the children:
    a text that holds more than spaces. -/
theorem followsText_iff {root a : Element} {q : List Nat} {front back : List Node} {n : Node}
    (found : root.below? q = some a) (children : a.children = front ++ n :: back) :
    root.FollowsText (q ++ [front.length]) ↔
      ∃ raw, front.getLast? = some (.text raw) ∧ Text.isSpaces raw = false := by
  constructor
  · rintro ⟨q', i, a', raw, same, found', here, content⟩
    obtain ⟨rfl, index⟩ := List.append_inj' same rfl
    obtain rfl := Option.some.inj (found.symm.trans found')
    have length : front.length = i + 1 := List.singleton_inj.1 index
    refine ⟨raw, ?_, content⟩
    rw [children, List.getElem?_append_left (by omega)] at here
    rw [List.getLast?_eq_getElem?, length, Nat.add_sub_cancel, here]
  · rintro ⟨raw, last, content⟩
    rw [List.getLast?_eq_getElem?] at last
    obtain ⟨lt, -⟩ := List.getElem?_eq_some_iff.1 last
    refine ⟨q, front.length - 1, a, raw, ?_, found, ?_, content⟩
    · rw [Nat.sub_add_cancel (by omega)]
    · rw [children, List.getElem?_append_left (by omega), last]

open Graft Markup.Element in
/-- **Grafting a touched element twice**: the text that the first graft gives is read, the route resolves in
    it again, and a graft of the element that it resolves to gives the same text, unless the element
    stands directly behind a text that holds more than spaces. -/
theorem graft_touched_again {text path : Text} {d : Document} {route : Route} {p : List Nat} {root : Element}
    {s : Settings} {unit : IndentUnit} {markers : Nat → Text} (one : AtMostOneMark text)
    (parsed : Document.parse text = .ok d) (names : d.root.hasNames = true)
    (clean : d.root.toNode.Every Node.CleanComment) (given : Route.ofText? path = .ok route)
    (resolved : Route.findOrCreate d.root .root route = .ok (d.root, ⟨⟨p⟩, none, []⟩))
    (valid : s.unit = .ok unit) (fixed : s.inferUnit = false) (ending : s.lineEnding ≠ .auto)
    (touched : d.root.editAt? ⟨p⟩ .touch = some root) (served : Served { d with root } ⟨p⟩ markers) :
    ∃ g d' p' root', graft { d with root } ⟨p⟩ s markers = .ok g ∧ Document.parse g.text = .ok d' ∧
      Route.findOrCreate d'.root .root route = .ok (d'.root, ⟨⟨p'⟩, none, []⟩) ∧
      d'.root.editAt? ⟨p'⟩ .touch = some root' ∧
      ∀ markers', Served { d' with root := root' } ⟨p'⟩ markers' →
        ∃ g', graft { d' with root := root' } ⟨p'⟩ s markers' = .ok g' ∧
          g'.changed = (g'.text != g.text) ∧ (g'.text = g.text ↔ ¬ d.root.FollowsText p) := by
  have read := Document.read_of_parse one parsed
  obtain ⟨some_step, named⟩ := of_ofText? given
  obtain ⟨t, leads⟩ := Route.leads_of_findOrCreate some_step resolved
  obtain rfl | ⟨r, step, rfl⟩ := List.eq_nil_or_concat' route
  · exact absurd rfl some_step
  obtain ⟨q, a, front, back, rfl, way, children, accepted, first⟩ := leads.last
  have found := way.below?
  obtain ⟨left, right, around⟩ := exists_around found
  obtain ⟨g, done, -, text_eq⟩ :=
    exists_graft_touched one parsed valid fixed ending found children around touched served
  -- the text is read as a tree with the laid element in the place of the old one
  have proper := proper_surroundingsBehind s unit (d.prolog ++ left)
  generalize surroundings : surroundingsBehind s unit (d.prolog ++ left) = S at text_eq proper
  obtain ⟨grafted, d', changed, parsed', prolog, epilog, twins, one'⟩ :=
    exists_parse_regraft read names found children around proper text_eq
  obtain ⟨same, -⟩ := twins.of_element
  have traceable := Route.traceable_of_named (f := id) (fun _ => rfl) named
  obtain ⟨t', leads', -⟩ :=
    (Route.Leads.regraft named way children accepted first S changed).of_bare traceable.reread same
  have present : (d'.root.at? ⟨q ++ [(addSpaces (cutLayout front) (S.margin.breakAt 0)).length]⟩).isSome
      = true := by
    rw [at?, leads'.below?]
    rfl
  obtain ⟨root', touched', -⟩ := exists_editAt?_touch present
  refine ⟨g, d', _, root', done, parsed', leads'.findOrCreate some_step, touched', ?_⟩
  intro markers' served'
  obtain ⟨b, front', t₂, back', found', children', opening, closing, before, laid, behind⟩ :=
    exists_parent_read twins (below?_of_changeBelow? found changed)
  rw [← before.length_eq] at served' touched' ⊢
  obtain ⟨g', done', said, text_eq'⟩ := exists_graft_touched one' parsed' valid fixed ending found' children'
    ((around.changed changed).twins twins) touched' served'
  refine ⟨g', done', said, ?_⟩
  -- the comments in the element are among those of the document
  have clean_t : (t.editChildren id).toNode.Every Node.CleanComment := by
    have below := (every_element.1 (every_below? clean found)).2 t.toNode (by rw [children]; simp)
    exact every_element.2 ⟨trivial, (every_element.1 below).2⟩
  have chain : front.IsChain Separate := by
    obtain ⟨-, -, chain, -⟩ := legible_iff.1 (every_below? (read.legible names) found)
    rw [children] at chain
    exact (List.isChain_append.1 chain).1
  -- both texts are the same around the children, so these are all that is compared
  rw [followsText_iff found children, ← writtenAll_regraft_twins proper chain clean_t before laid behind,
    text_eq', text_eq, prolog, surroundings, epilog, opening, closing]
  simp only [List.append_assoc, List.append_cancel_left_eq, List.append_cancel_right_eq]

/-! ### A comment of two lines -/

namespace TwoLines

/-- An element behind a break, with a comment of two lines and text behind it. -/
def text : Text := "<a>\n <b><!--u\n  v--> x</b></a>".toList

/-- The element, as it was read; `changed` when it was touched. -/
def element (changed : Bool) : Element :=
  ⟨⟨['b'], [], some ⟨some ⟨2, 2⟩, ⟨⟨5, 8⟩, "<b>".toList⟩, some ⟨⟨22, 26⟩, "</b>".toList⟩⟩, changed, false⟩,
    [.comment "<!--u\n  v-->".toList, .text " x".toList]⟩

/-- The root element. -/
def root (changed : Bool) : Element :=
  ⟨⟨['a'], [], some ⟨some ⟨1, 1⟩, ⟨⟨0, 3⟩, "<a>".toList⟩, some ⟨⟨26, 30⟩, "</a>".toList⟩⟩, false, false⟩,
    [.text "\n ".toList, (element changed).toNode]⟩

/-- The document. -/
def document (changed : Bool) : Document := ⟨Source.ofText text, [], root changed, []⟩

/-- The text with the element on lines of its own. -/
def laidText : Text := "<a>\n  <b>\n    <!--u\n    v-->x</b>\n</a>".toList

/-- The element in it. -/
def laidElement (changed : Bool) : Element :=
  ⟨⟨['b'], [], some ⟨some ⟨2, 3⟩, ⟨⟨6, 9⟩, "<b>".toList⟩, some ⟨⟨29, 33⟩, "</b>".toList⟩⟩, changed, false⟩,
    [.text "\n    ".toList, .comment "<!--u\n    v-->".toList, .text ['x']]⟩

/-- The root element in it. -/
def laidRoot (changed : Bool) : Element :=
  ⟨⟨['a'], [], some ⟨some ⟨1, 1⟩, ⟨⟨0, 3⟩, "<a>".toList⟩, some ⟨⟨34, 38⟩, "</a>".toList⟩⟩, false, false⟩,
    [.text "\n  ".toList, (laidElement changed).toNode, .text ['\n']]⟩

/-- What that text is read as. -/
def laidDocument (changed : Bool) : Document := ⟨Source.ofText laidText, [], laidRoot changed, []⟩

/-- Two spaces a level, and line feeds. -/
def settings : Settings := ⟨"  ".toList, false, .lf⟩

/-- The marker that is always drawn. -/
def markers : Nat → Text := fun _ => "@M@".toList

/-- What the first graft gives. -/
def grafted : Grafted := ⟨laidText, true, some ['b'], some ⟨1, 1⟩⟩

theorem clean_root : (root false).toNode.Every Node.CleanComment := by
  refine every_element.2 ⟨trivial, ?_⟩
  simp only [root, List.forall_mem_cons]
  refine ⟨.leaf rfl trivial, every_element.2 ⟨trivial, ?_⟩, List.forall_mem_nil _⟩
  simp only [element, List.forall_mem_cons]
  refine ⟨.leaf rfl ?_, .leaf rfl trivial, List.forall_mem_nil _⟩
  exact (by decide : Text.ReturnsEndLines "<!--u\n  v-->".toList)

theorem served : Graft.Served (document true) ⟨[1]⟩ markers := by
  have found : Graft.site? (root true) ⟨[1]⟩ = .ok ⟨⟨[]⟩, 1⟩ := by rfl
  have there : (root true).at? ⟨[]⟩ = some (root true) := rfl
  refine Graft.served_constantly found there (by decide) ?_ ?_
  · with_unfolding_all rfl
  · unfold Text.StandsOnce
    rfl

theorem served_laid : Graft.Served (laidDocument true) ⟨[1]⟩ markers := by
  have found : Graft.site? (laidRoot true) ⟨[1]⟩ = .ok ⟨⟨[]⟩, 1⟩ := by rfl
  have there : (laidRoot true).at? ⟨[]⟩ = some (laidRoot true) := rfl
  refine Graft.served_constantly found there (by decide) ?_ ?_
  · with_unfolding_all rfl
  · unfold Text.StandsOnce
    rfl

theorem not_followsText : ¬ (root false).FollowsText [1] := by
  have found : (root false).below? [] = some (root false) := rfl
  have children : (root false).children = [.text "\n ".toList] ++ (element false).toNode :: [] := rfl
  rw [show [1] = ([] : List Nat) ++ [[Node.text "\n ".toList].length] from rfl,
    followsText_iff found children]
  rintro ⟨raw, same, content⟩
  cases same
  cases content

end TwoLines

open TwoLines in
/-- The element is put on lines of its own, and grafting it again changes nothing. -/
theorem graft_touched_again_twoLines :
    AtMostOneMark text ∧ Document.parse text = .ok (document false) ∧ (root false).hasNames = true ∧
    (root false).toNode.Every Node.CleanComment ∧ Route.ofText? ['b'] = .ok [.named ['b']] ∧
    Route.findOrCreate (root false) .root [.named ['b']] = .ok (root false, ⟨⟨[1]⟩, none, []⟩) ∧
    settings.unit = .ok ⟨.space, 2⟩ ∧ settings.inferUnit = false ∧ settings.lineEnding ≠ .auto ∧
    (root false).editAt? ⟨[1]⟩ .touch = some (root true) ∧
    Graft.Served (document true) ⟨[1]⟩ markers ∧ ¬ (root false).FollowsText [1] ∧
    graft (document true) ⟨[1]⟩ settings markers = .ok grafted ∧
    Document.parse laidText = .ok (laidDocument false) ∧
    (laidRoot false).editAt? ⟨[1]⟩ .touch = some (laidRoot true) ∧
    ∃ g, graft (laidDocument true) ⟨[1]⟩ settings markers = .ok g ∧ g.text = laidText ∧
      g.changed = false := by
  have one : AtMostOneMark text := by decide
  have parsed : Document.parse text = .ok (document false) := by with_unfolding_all rfl
  have names : (root false).hasNames = true := by rfl
  have given : Route.ofText? ['b'] = .ok [.named ['b']] := by rfl
  have resolved : Route.findOrCreate (root false) .root [.named ['b']]
      = .ok (root false, ⟨⟨[1]⟩, none, []⟩) := by rfl
  have valid : settings.unit = .ok ⟨.space, 2⟩ := by rfl
  have touched : (root false).editAt? ⟨[1]⟩ .touch = some (root true) := by rfl
  have done : graft (document true) ⟨[1]⟩ settings markers = .ok grafted := by with_unfolding_all rfl
  have parsed_laid : Document.parse laidText = .ok (laidDocument false) := by with_unfolding_all rfl
  have resolved_laid : Route.findOrCreate (laidRoot false) .root [.named ['b']]
      = .ok (laidRoot false, ⟨⟨[1]⟩, none, []⟩) := by rfl
  have touched_laid : (laidRoot false).editAt? ⟨[1]⟩ .touch = some (laidRoot true) := by rfl
  obtain ⟨g, d', p', root', done', parsed', resolved', touched', again⟩ :=
    graft_touched_again one parsed names clean_root given resolved valid rfl (by decide) touched served
  -- what the theorem speaks of is what is computed here
  obtain rfl := Except.ok.inj (done.symm.trans done')
  obtain rfl := Except.ok.inj (parsed_laid.symm.trans parsed')
  obtain ⟨-, arrival⟩ := Prod.mk.inj (Except.ok.inj (resolved_laid.symm.trans resolved'))
  obtain ⟨address, -, -⟩ := Route.Arrival.mk.inj arrival
  obtain rfl := Address.mk.inj address
  obtain rfl := Option.some.inj (touched_laid.symm.trans touched')
  obtain ⟨g, once_more, said, stays⟩ := again markers served_laid
  have same := stays.2 not_followsText
  refine ⟨one, parsed, names, clean_root, given, resolved, valid, rfl, by decide, touched, served,
    not_followsText, done, parsed_laid, touched_laid, g, once_more, same, ?_⟩
  rw [said, same]
  exact bne_self_eq_false _

/-! ### An element behind three letters -/

namespace BehindText

/-- An element directly behind text. -/
def text : Text := "<a>foo<b><c/></b></a>".toList

/-- The element, as it was read; `changed` when it was touched. -/
def root (changed : Bool) : Element :=
  ⟨⟨['a'], [], some ⟨some ⟨1, 1⟩, ⟨⟨0, 3⟩, "<a>".toList⟩, some ⟨⟨17, 21⟩, "</a>".toList⟩⟩, false, false⟩,
    [.text "foo".toList,
      .element ⟨['b'], [], some ⟨some ⟨1, 7⟩, ⟨⟨6, 9⟩, "<b>".toList⟩, some ⟨⟨13, 17⟩, "</b>".toList⟩⟩,
        changed, false⟩
      [.element ⟨['c'], [], some ⟨some ⟨1, 10⟩, ⟨⟨9, 13⟩, "<c/>".toList⟩, none⟩, false, false⟩ []]]⟩

/-- The document. -/
def document (changed : Bool) : Document := ⟨Source.ofText text, [], root changed, []⟩

/-- The text with the element on lines of its own. -/
def laidText : Text := "<a>foo\n  <b>\n    <c/>\n  </b>\n</a>".toList

/-- The root element in it: the break goes on in the text. -/
def laidRoot (changed : Bool) : Element :=
  ⟨⟨['a'], [], some ⟨some ⟨1, 1⟩, ⟨⟨0, 3⟩, "<a>".toList⟩, some ⟨⟨29, 33⟩, "</a>".toList⟩⟩, false, false⟩,
    [.text "foo\n  ".toList,
      .element ⟨['b'], [], some ⟨some ⟨2, 3⟩, ⟨⟨9, 12⟩, "<b>".toList⟩, some ⟨⟨24, 28⟩, "</b>".toList⟩⟩,
        changed, false⟩
      [.text "\n    ".toList,
        .element ⟨['c'], [], some ⟨some ⟨3, 5⟩, ⟨⟨17, 21⟩, "<c/>".toList⟩, none⟩, false, false⟩ [],
        .text "\n  ".toList],
      .text ['\n']]⟩

/-- What that text is read as. -/
def laidDocument (changed : Bool) : Document := ⟨Source.ofText laidText, [], laidRoot changed, []⟩

end BehindText

open TwoLines in
/-- **Behind text** one more break is added with each graft: the element is laid out a second time
    behind an empty line, since the break of the first time is now a part of the text. -/
theorem not_graft_touched_again_behindText :
    Document.parse BehindText.text = .ok (BehindText.document false) ∧
    (BehindText.root false).editAt? ⟨[1]⟩ .touch = some (BehindText.root true) ∧
    graft (BehindText.document true) ⟨[1]⟩ settings markers
      = .ok ⟨BehindText.laidText, true, some ['b'], some ⟨1, 1⟩⟩ ∧
    Document.parse BehindText.laidText = .ok (BehindText.laidDocument false) ∧
    (BehindText.laidRoot false).editAt? ⟨[1]⟩ .touch = some (BehindText.laidRoot true) ∧
    graft (BehindText.laidDocument true) ⟨[1]⟩ settings markers
      = .ok ⟨"<a>foo\n  \n  <b>\n    <c/>\n  </b>\n</a>".toList, true, some ['b'], some ⟨1, 1⟩⟩ := by
  refine ⟨?_, ?_, ?_, ?_, ?_, ?_⟩ <;> with_unfolding_all rfl

end XmlGraft
