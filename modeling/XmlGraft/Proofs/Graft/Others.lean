/-
  Others — what an update leaves of the elements that no field names.

  Fields are written into one element, and all of it is laid out anew: its other children too, with
  everything in them.  What is left of these is what layout does not touch: their names, and their
  texts but for the spaces around each of them.

  1. **Texts** (`Element.texts`): the texts of an element that are not blank, each without the
     spaces around it.  They make up the element's text, but for spaces (`solid_text`), and all of
     it when there is no more than one of them (`text_of_length_texts_le`).  With two of them it is
     not known how many spaces stood in between, for these are layout.

  2. **Inner elements** (`Element.inner?`): elements that say the same have the same elements inside
     them, and these say the same.  Elements are counted and not nodes, since layout adds texts.

  3. **Children that are not named** (`getElem?_writeAll`): writing fields leaves them in their
     places.

  4. **The way** (`Leads.changed_end`, `exists_leads_of_update`): a route of names leads to the
     element before and after.  The target is followed through the whole update here: fields, graft,
     reading.

  5. **The other elements** (`update_keeps_others`): they keep their names and their texts.  What
     joins the texts of one element is layout, and does not stay (`not_text_update_mixed`).

  Names of elements are compared as written.  A field whose name is that of a child takes the first
  child of that name, and only that one; all other children of that name are elements that no field
  changes, and yet the statement leaves them out, as it speaks of names.
-/
import XmlGraft.Proofs.Graft.Again
import XmlGraft.Proofs.Graft.Shifted

namespace XmlGraft

open Markup

/-! ## Texts -/

/-- The characters of a text that are no spaces. -/
def Text.solid (t : Text) : Text := t.filter fun c => !Text.isSpace c

theorem Text.solid_append (s t : Text) : (s ++ t).solid = s.solid ++ t.solid := List.filter_append ..

theorem Text.solid_of_isSpaces {t : Text} (blank : t.isSpaces = true) : t.solid = [] :=
  List.filter_eq_nil_iff.2 fun c hc => by simp [Text.isSpaces_iff.1 blank c hc]

/-- Trimming takes away nothing else. -/
theorem Text.solid_trim (t : Text) : (Text.trim t).solid = t.solid := by
  obtain ⟨before, after, hb, ha, whole⟩ := Text.eq_trim t
  have both := congrArg Text.solid whole
  rw [solid_append, solid_append, solid_of_isSpaces hb, solid_of_isSpaces ha, List.nil_append,
    List.append_nil] at both
  exact both.symm

namespace Markup

/-- The text that a node adds to the text of its parent. -/
def Node.resolved : Node → Text
  | .text raw => resolveOrSame raw
  | _ => []

/-- The text of a node, without the spaces around it, unless it is blank. -/
def Node.ownText? : Node → Option Text
  | .text raw => if Text.isSpaces raw then none else some (resolveOrSame (Text.trim raw))
  | _ => none

/-- **The texts of an element** that are not blank, in order, each without the spaces around it. -/
def Element.texts (e : Element) : List Text := e.children.filterMap Node.ownText?

/-- A text stands for what it stands for without the spaces around it, between spaces. -/
theorem exists_resolveOrSame_trim (raw : Text) :
    ∃ before after, Text.isSpaces before = true ∧ Text.isSpaces after = true ∧
      resolveOrSame raw = before ++ resolveOrSame (Text.trim raw) ++ after := by
  obtain ⟨before, after, hb, ha, whole⟩ := Text.eq_trim raw
  cases read : resolve raw with
  | ok v =>
    obtain ⟨before, w, after, hb, ha, -, rfl, inner⟩ := (resolve_eq_ok_iff.1 read).trim
    refine ⟨before, after, hb, ha, ?_⟩
    rw [resolveOrSame_eq inner, resolveOrSame, read]
  -- a text that stands for nothing is taken as it is, and its middle stands for nothing either
  | error fault =>
    refine ⟨before, after, hb, ha, ?_⟩
    have broken : ∀ v, resolve (Text.trim raw) ≠ .ok v := by
      intro v own
      -- between spaces it would stand for something
      have inner := resolve_eq_ok_iff.1 own
      have front := Resolves.of_plain fun c hc => (ne_mark_of_isSpaces hb c hc).1
      have back := Resolves.of_plain fun c hc => (ne_mark_of_isSpaces ha c hc).1
      have all := (front.append inner).append back
      rw [← whole, ← resolve_eq_ok_iff, read] at all
      cases all
    have same : resolveOrSame (Text.trim raw) = Text.trim raw := by
      rw [resolveOrSame]
      split
      · next v own => exact absurd own (broken v)
      · rfl
    rw [same, ← whole, resolveOrSame, read]

/-- What a node adds to the text of its parent is its own text between spaces. -/
theorem Node.resolved_cases (n : Node) :
    (n.ownText? = none ∧ Text.isSpaces n.resolved = true) ∨
    ∃ own before after, n.ownText? = some own ∧ Text.isSpaces before = true ∧
      Text.isSpaces after = true ∧ n.resolved = before ++ own ++ after := by
  cases n with
  | text raw =>
    cases blank : Text.isSpaces raw with
    | true =>
      refine .inl ⟨by rw [ownText?, if_pos blank], ?_⟩
      rw [resolved, resolveOrSame_of_isSpaces blank, blank]
    | false =>
      obtain ⟨before, after, hb, ha, whole⟩ := exists_resolveOrSame_trim raw
      refine .inr ⟨_, before, after, ?_, hb, ha, whole⟩
      rw [ownText?, blank, if_neg Bool.false_ne_true]
  | element | comment | other => exact .inl ⟨rfl, rfl⟩

/-- **Nodes add their own texts**, and spaces.  Spaces come from text nodes that hold nothing
    else, and are no part of what is compared. -/
theorem solid_flatMap_resolved (ns : List Node) :
    Text.solid (ns.flatMap Node.resolved) = Text.solid (ns.filterMap Node.ownText?).flatten := by
  induction ns with
  | nil => rfl
  | cons n ns ih =>
    rw [List.flatMap_cons, Text.solid_append, ih]
    rcases n.resolved_cases with ⟨none, blank⟩ | ⟨own, before, after, some, hb, ha, whole⟩
    · rw [List.filterMap_cons_none none, Text.solid_of_isSpaces blank, List.nil_append]
    · rw [List.filterMap_cons_some some, List.flatten_cons, Text.solid_append, whole,
        Text.solid_append, Text.solid_append, Text.solid_of_isSpaces hb, Text.solid_of_isSpaces ha,
        List.nil_append, List.append_nil]

/-- **One text between spaces**, when there are no more of them.  With two, the spaces between
    them are inside, and trimming does not reach them. -/
theorem flatMap_resolved_of_length_le {ns : List Node}
    (few : (ns.filterMap Node.ownText?).length ≤ 1) :
    ∃ before after, Text.isSpaces before = true ∧ Text.isSpaces after = true ∧
      ns.flatMap Node.resolved = before ++ (ns.filterMap Node.ownText?).flatten ++ after := by
  induction ns with
  | nil => exact ⟨[], [], rfl, rfl, rfl⟩
  | cons n ns ih =>
    rcases n.resolved_cases with ⟨none, blank⟩ | ⟨own, before, after, some, hb, ha, whole⟩
    · rw [List.filterMap_cons_none none] at few ⊢
      obtain ⟨before, after, hb, ha, rest⟩ := ih few
      refine ⟨n.resolved ++ before, after, by rw [Text.isSpaces_append, blank, hb]; rfl, ha, ?_⟩
      rw [List.flatMap_cons, rest]
      simp only [List.append_assoc]
    · -- there is no text behind it
      rw [List.filterMap_cons_some some] at few ⊢
      have nothing : ns.filterMap Node.ownText? = [] :=
        List.eq_nil_of_length_eq_zero (by rw [List.length_cons] at few; omega)
      rw [nothing] at ih ⊢
      obtain ⟨before', after', hb', ha', rest⟩ := ih (Nat.zero_le 1)
      refine ⟨before, after ++ (before' ++ after'), hb, ?_, ?_⟩
      · rw [Text.isSpaces_append, Text.isSpaces_append, ha, hb', ha']
        rfl
      · rw [List.flatMap_cons, rest, whole]
        simp

namespace Element

theorem text_eq (e : Element) : e.text = Text.trim (e.children.flatMap Node.resolved) := rfl

/-- **The text of an element is made of its texts**, but for spaces.  This holds of mixed content
    as well, where the spaces between the texts are not kept. -/
theorem solid_text (e : Element) : Text.solid e.text = Text.solid e.texts.flatten := by
  rw [text_eq, Text.solid_trim, solid_flatMap_resolved, texts]

/-- **The text of an element is its only text**, trimmed, or empty if there is none.  So outside
    mixed content it depends on nothing but what the element says. -/
theorem text_of_length_texts_le {e : Element} (few : e.texts.length ≤ 1) :
    e.text = Text.trim e.texts.flatten := by
  obtain ⟨before, after, hb, ha, whole⟩ := flatMap_resolved_of_length_le few
  rw [text_eq, whole, Text.trim_append_spaces ha, Text.trim_spaces_append hb, texts]

end Element

/-! ## Elements that say the same -/

/-- What a node says has the text of the node. -/
theorem ownText?_gist {n : Node} (content : n.isLayout = false) : n.gist.ownText? = n.ownText? := by
  cases n with
  | text raw =>
    have content : Text.isSpaces raw = false := content
    rw [Node.gist, Node.ownText?, Node.ownText?, Text.isSpaces_trim, Text.trim_trim, content]
  | element | comment | other => rfl

/-- **The texts among nodes are seen in what the nodes say**: layout has none, and the rest keeps
    its own. -/
theorem filterMap_ownText?_gistAll (ns : List Node) :
    (gistAll ns).filterMap Node.ownText? = ns.filterMap Node.ownText? := by
  induction ns with
  | nil => rfl
  | cons n ns ih =>
    rw [gistAll]
    cases layout : n.isLayout with
    | true =>
      -- a text of spaces is no text of its element
      have none : n.ownText? = none := by
        cases n with
        | text raw => exact if_pos layout
        | element | comment | other => rfl
      rw [if_pos rfl, ih, List.filterMap_cons_none none]
    | false =>
      rw [if_neg Bool.false_ne_true, List.filterMap_cons, List.filterMap_cons, ownText?_gist layout, ih]

/-- No element is layout, so the elements in what nodes say are those of the nodes, in their
    order. -/
theorem elements_gistAll (ns : List Node) : elements (gistAll ns) = (elements ns).map Element.gist := by
  induction ns with
  | nil => rfl
  | cons n ns ih =>
    cases n with
    | element tag children => exact congrArg (Element.gist ⟨tag, children⟩ :: ·) ih
    | text raw =>
      rw [gistAll]
      split
      · exact ih
      · exact ih
    | comment | other => exact ih

/-- **What an update does not alter** of an element: its name, its texts, and so its text, but for the
    spaces between two texts. -/
structure Unaltered (e e' : Element) : Prop where
  name : e'.name = e.name
  texts : e'.texts = e.texts
  solid : Text.solid e'.text = Text.solid e.text
  text : e.texts.length ≤ 1 → e'.text = e.text

theorem Element.texts_gist (e : Element) : e.gist.texts = e.texts := filterMap_ownText?_gistAll e.children

theorem name_of_gist {e e' : Element} (same : e'.gist = e.gist) : e'.name = e.name := by
  change e'.gist.name = e.gist.name
  rw [same]

/-- **Elements that say the same** have the same name and the same texts, for these are parts of
    what they say. -/
theorem unaltered_of_gist {e e' : Element} (same : e'.gist = e.gist) : Unaltered e e' := by
  have texts : e'.texts = e.texts := by rw [← e'.texts_gist, same, e.texts_gist]
  refine ⟨name_of_gist same, texts, ?_, fun few => ?_⟩
  · rw [e'.solid_text, e.solid_text, texts]
  · rw [Element.text_of_length_texts_le few, Element.text_of_length_texts_le (by rw [texts]; exact few),
      texts]

/-- **An element inside another one**, by the child elements on the way, counted from 0. -/
def Element.inner? (e : Element) : List Nat → Option Element
  | [] => some e
  | i :: q => (elements e.children)[i]?.bind (·.inner? q)

/-- The way to an inner element is the same in what the element says. -/
theorem inner?_gist (q : List Nat) (e : Element) : e.gist.inner? q = (e.inner? q).map Element.gist := by
  induction q generalizing e with
  | nil => rfl
  | cons i q ih =>
    have children : elements e.gist.children = (elements e.children).map Element.gist :=
      elements_gistAll e.children
    rw [Element.inner?, Element.inner?, children, List.getElem?_map]
    cases (elements e.children)[i]? with
    | none => rfl
    | some c => exact ih c

/-- **Inside elements that say the same** are the same elements, all of them unaltered; a way
    through child elements leads somewhere in both or in neither. -/
theorem rel_inner? {e e' : Element} (same : e'.gist = e.gist) (q : List Nat) :
    Option.Rel Unaltered (e.inner? q) (e'.inner? q) := by
  have both : (e'.inner? q).map Element.gist = (e.inner? q).map Element.gist := by
    rw [← inner?_gist, ← inner?_gist, same]
  cases found : e.inner? q with
  | none =>
    rw [found, Option.map_none, Option.map_eq_none_iff] at both
    rw [both]
    exact .none
  | some x =>
    rw [found, Option.map_some, Option.map_eq_some_iff] at both
    obtain ⟨x', found', gist⟩ := both
    rw [found']
    exact .some (unaltered_of_gist gist)

end Markup

/-! ## Children that are not named -/

namespace Fields

/-- What stands at an index stays when something else is replaced. -/
theorem getElem?_replace {α : Type} {before behind : List α} {x y c : α} {i : Nat}
    (there : (before ++ x :: behind)[i]? = some c) (other : x ≠ c) :
    (before ++ y :: behind)[i]? = some c := by
  have replaced : before ++ y :: behind = (before ++ x :: behind).set before.length y := by simp
  rw [replaced, List.getElem?_set_ne, there]
  rintro rfl
  rw [List.getElem?_append_right (Nat.le_refl _), Nat.sub_self, List.getElem?_cons_zero] at there
  exact other (Option.some.inj there)

/-- **Writing a value** leaves a child of another name in its place among the child elements, for
    one of them is replaced where it is, or one is added behind them. -/
theorem getElem?_writeOne {e c : Element} {name value : Text} {i : Nat}
    (there : (elements e.children)[i]? = some c) (other : name ≠ c.name) :
    (elements (writeOne e name value).1.children)[i]? = some c := by
  rcases writeOne_cases e name value with ⟨front, x, back, children, same, -, ⟨-, h⟩ | h⟩ | ⟨-, h⟩ <;>
    rw [h]
  · exact there
  · rw [children, elements_append, elements_toNode] at there
    rw [elements_append, elements_toNode]
    refine getElem?_replace there ?_
    rintro rfl
    exact other same.symm
  · have appended : elements (e.append (Element.ofValue name value).toNode).children
        = elements e.children ++ [Element.ofValue name value] := elements_append ..
    -- a new child comes behind all others, so the index is inside
    obtain ⟨inside, -⟩ := List.getElem?_eq_some_iff.1 there
    rw [appended, List.getElem?_append_left inside, there]

/-- **Writing values** leaves the children of all other names in their places, untouched and not
    only equal in what they say. -/
theorem getElem?_writeAll {e c : Element} {values : List (Text × Text)} {i : Nat}
    (there : (elements e.children)[i]? = some c) (others : ∀ v ∈ values, v.1 ≠ c.name) :
    (elements (writeAll e values).1.children)[i]? = some c := by
  induction values generalizing e with
  | nil => exact there
  | cons v values ih =>
    obtain ⟨name, value⟩ := v
    rw [List.forall_mem_cons] at others
    rw [writeAll_cons]
    exact ih (getElem?_writeOne there others.1) others.2

end Fields

/-! ## The way -/

/-- **A step that looks at names only.** -/
def Step.ByName (s : Step) : Prop := ∀ e e' : Element, e'.name = e.name → s.accepts e' = s.accepts e

/-- A step that goes by name looks at names only. -/
theorem byName_named (name : Text) : (Step.named name).ByName := fun e e' same => by
  rw [Step.accepts_named, Step.accepts_named, same]

namespace Route

open Markup.Element

variable {route : Route} {e e' t : Element} {p : List Nat}

/-- **The way to an element that changes** stays, if its name does.  The steps look at names only,
    and the element is the first of its name after the change as before it. -/
theorem Leads.changed_end (h : Leads route e p t) (byName : ∀ s ∈ route, s.ByName)
    {f : Element → Element} (name : (f t).name = t.name) (changed : e.changeBelow? f p = some e') :
    Leads route e' p (f t) ∧ e'.name = e.name := by
  induction h generalizing e' with
  | here =>
    cases changed
    exact ⟨.here, name⟩
  | @down s route e c t i p found _ ih =>
    rw [List.forall_mem_cons] at byName
    obtain ⟨front, back, children, rfl, accepted, first⟩ := findChild?_eq_some_iff.1 found
    rw [changeBelow?_cons children, Option.map_eq_some_iff] at changed
    obtain ⟨c', changed, rfl⟩ := changed
    obtain ⟨leads, same⟩ := ih byName.2 name changed
    have accepted' : s.accepts c' = true := (byName.1 c c' same).trans accepted
    exact ⟨.down (findChild?_eq_some_iff.2 ⟨front, back, rfl, rfl, accepted', first⟩) leads, rfl⟩

end Route

/-! ## The other elements -/

open Graft Route

/-- **The way to the target after an update**: in the new text the route leads to an element that
    says what the target with its fields says, whatever markers are drawn.  A marker may move a
    letter of text, but no element. -/
theorem exists_leads_of_update {text : Text} {d : Document} (read : d.Read text)
    (names : d.root.hasNames = true) (parsed : Document.parse text = .ok d) {way : List Text}
    {p : List Nat} {t : Element} (leads : Leads (way.map Step.named) d.root p t) {fields : Fields}
    (fieldNames : ∀ field ∈ fields.entries, isElementName field.1 = true) {settings : Settings}
    {markers : Nat → Text} (drawn : ∀ n < maxAttempts, (markers n).Inert) {u : Updated}
    (done : update text (way.map Step.named) fields settings markers = .ok u) :
    ∃ d' p' t', Document.parse u.text = .ok d' ∧ Leads (way.map Step.named) d'.root p' t' ∧
      t'.gist = (fields.applied t).gist := by
  obtain rfl | ⟨way, name, rfl⟩ := List.eq_nil_or_concat' way
  · rw [List.map_nil, update, readDocument, parsed] at done
    cases done
  have byName : ∀ s ∈ way.map Step.named, s.ByName := by
    intro s hs
    obtain ⟨name, -, rfl⟩ := List.mem_map.1 hs
    exact byName_named name
  have blind : ∀ s ∈ (way ++ [name]).map Step.named, ∀ x : Element, s.accepts x.bare = s.accepts x := by
    intro s hs
    obtain ⟨name, -, rfl⟩ := List.mem_map.1 hs
    exact accepts_bare_named name
  -- the target is changed in its place, below a parent that was read
  have changed := changeBelow?_follow fields.applied 0 d.root ((way ++ [name]).map Step.named)
  obtain ⟨g, grafted, rfl⟩ := graft_of_update parsed (by simp) done
  rw [leads.follow 0] at changed grafted
  have legible := (read.legible names).changeBelow? leads.below?
    (legible_applied fieldNames t (Element.every_below? (read.legible names) leads.below?)) changed
  generalize changeEnd fields.applied ((way ++ [name]).map Step.named) d.root = edited
    at changed grafted legible
  rw [List.map_append] at leads blind ⊢
  obtain ⟨q, a, front, back, rfl, above, children, accepted, first⟩ := leads.last
  obtain ⟨changed, site⟩ := site?_changed read above.below? children changed
  obtain ⟨a', root', d', kept, regrafted, parsed', bare⟩ := exists_parse_graft read legible grafted site
    (Element.below?_of_changeBelow? above.below? changed) rfl drawn
  rw [Element.changeBelow?_changeBelow? changed] at regrafted
  -- where the target stood is the target, laid out; it has its name, so the last step finds it
  obtain ⟨t', same, elements'⟩ := kept.elements
  have named : t'.name = t.name := (name_of_gist same).trans (Fields.tag_writeAll t fields.written).1
  obtain ⟨above', -⟩ := above.changed_end byName (congrArg Tag.name kept.tag) regrafted
  obtain ⟨i, found⟩ :=
    Element.exists_findChild? elements' first ((byName_named name t t' named).trans accepted)
  have leads' := leads_append.2 ⟨q, [i], a', rfl, above', .down found .here⟩
  obtain ⟨t'', leads'', same'⟩ := leads'.of_bare blind bare
  exact ⟨d', _, t'', parsed', leads'', (Element.gist_of_bare same').trans same⟩

/-- **The other elements**: after an update, the child elements of the target that no field names are in
    their places, and they and all elements inside them have the texts they had. -/
theorem update_keeps_others {text : Text} {d : Document} {way : List Text} {fields : Fields}
    {settings : Settings} {markers : Nat → Text} {u : Updated} {p : List Nat} {t : Element}
    (one : AtMostOneMark text) (parsed : Document.parse text = .ok d) (names : d.root.hasNames = true)
    (leads : Leads (way.map Step.named) d.root p t)
    (fieldNames : ∀ field ∈ fields.entries, isElementName field.1 = true)
    (drawn : ∀ n < maxAttempts, (markers n).Inert)
    (done : update text (way.map Step.named) fields settings markers = .ok u) :
    ∃ d' p' t', Document.parse u.text = .ok d' ∧ Leads (way.map Step.named) d'.root p' t' ∧
      ∀ (i : Nat) (c : Element), (elements t.children)[i]? = some c →
        (∀ v ∈ fields.written, v.1 ≠ c.name) →
        ∃ c', (elements t'.children)[i]? = some c' ∧
          ∀ q, Option.Rel Unaltered (c.inner? q) (c'.inner? q) := by
  have read := Document.read_of_parse one parsed
  obtain ⟨d', p', t', parsed', leads', same⟩ :=
    exists_leads_of_update read names parsed leads fieldNames drawn done
  refine ⟨d', p', t', parsed', leads', fun i c there others => ?_⟩
  -- fields leave the child where it is, and then only layout changes
  have kept : (elements (fields.applied t).children)[i]? = some c := Fields.getElem?_writeAll there others
  have children : (elements t'.children).map Element.gist
      = (elements (fields.applied t).children).map Element.gist := by
    rw [← elements_gistAll, ← elements_gistAll]
    exact congrArg elements (congrArg Element.children same)
  have gist := congrArg (·[i]?) children
  simp only [List.getElem?_map, kept, Option.map_some, Option.map_eq_some_iff] at gist
  obtain ⟨c', found, gist⟩ := gist
  exact ⟨c', found, rel_inner? gist⟩

/-! ### A child with two texts, and one with one -/

namespace TwoTexts

/-- In the target, an element with a tag between its two texts, and one with one text. -/
def text : Text := "<r><t><p>x <b/> y</p><q> z </q></t></r>".toList

/-- The element with two texts. -/
def mixed : Element :=
  ⟨⟨['p'], [], some ⟨some ⟨1, 7⟩, ⟨⟨6, 9⟩, "<p>".toList⟩, some ⟨⟨17, 21⟩, "</p>".toList⟩⟩, false, false⟩,
    [.text "x ".toList,
      .element ⟨['b'], [], some ⟨some ⟨1, 12⟩, ⟨⟨11, 15⟩, "<b/>".toList⟩, none⟩, false, false⟩ [],
      .text " y".toList]⟩

/-- The element with one text. -/
def plain : Element :=
  ⟨⟨['q'], [], some ⟨some ⟨1, 22⟩, ⟨⟨21, 24⟩, "<q>".toList⟩, some ⟨⟨27, 31⟩, "</q>".toList⟩⟩, false, false⟩,
    [.text " z ".toList]⟩

/-- The target. -/
def target : Element :=
  ⟨⟨['t'], [], some ⟨some ⟨1, 4⟩, ⟨⟨3, 6⟩, "<t>".toList⟩, some ⟨⟨31, 35⟩, "</t>".toList⟩⟩, false, false⟩,
    [mixed.toNode, plain.toNode]⟩

/-- The root element. -/
def root : Element :=
  ⟨⟨['r'], [], some ⟨some ⟨1, 1⟩, ⟨⟨0, 3⟩, "<r>".toList⟩, some ⟨⟨35, 39⟩, "</r>".toList⟩⟩, false, false⟩,
    [target.toNode]⟩

/-- The document. -/
def document : Document := ⟨Source.ofText text, [], root, []⟩

/-- One field. -/
def fields : Fields := .ofPairs [(['c'], .text ['1'])]

/-- The marker that is always drawn. -/
def markers : Nat → Text := fun _ => "@M@".toList

/-- What the update gives. -/
def updated : Updated :=
  ⟨"<r>\n    <t>\n        <p>x<b/>y</p>\n        <q>z</q>\n        <c>1</c>\n    </t>\n</r>".toList,
    ⟨true, [], some ['t'], some ⟨1, 1⟩⟩⟩

/-- The element with two texts, in the new text. -/
def laidMixed : Element :=
  ⟨⟨['p'], [], some ⟨some ⟨3, 9⟩, ⟨⟨20, 23⟩, "<p>".toList⟩, some ⟨⟨29, 33⟩, "</p>".toList⟩⟩, false, false⟩,
    [.text ['x'],
      .element ⟨['b'], [], some ⟨some ⟨3, 13⟩, ⟨⟨24, 28⟩, "<b/>".toList⟩, none⟩, false, false⟩ [],
      .text ['y']]⟩

/-- The element with one text, in the new text. -/
def laidPlain : Element :=
  ⟨⟨['q'], [], some ⟨some ⟨4, 9⟩, ⟨⟨42, 45⟩, "<q>".toList⟩, some ⟨⟨46, 50⟩, "</q>".toList⟩⟩, false, false⟩,
    [.text ['z']]⟩

/-- The field, in the new text. -/
def laidField : Element :=
  ⟨⟨['c'], [], some ⟨some ⟨5, 9⟩, ⟨⟨59, 62⟩, "<c>".toList⟩, some ⟨⟨63, 67⟩, "</c>".toList⟩⟩, false, false⟩,
    [.text ['1']]⟩

/-- The target, in the new text. -/
def laidTarget : Element :=
  ⟨⟨['t'], [], some ⟨some ⟨2, 5⟩, ⟨⟨8, 11⟩, "<t>".toList⟩, some ⟨⟨72, 76⟩, "</t>".toList⟩⟩, false, false⟩,
    [.text "\n        ".toList, laidMixed.toNode, .text "\n        ".toList, laidPlain.toNode,
      .text "\n        ".toList, laidField.toNode, .text "\n    ".toList]⟩

/-- What the new text is read as. -/
def laidDocument : Document :=
  ⟨Source.ofText updated.text, [],
    ⟨⟨['r'], [], some ⟨some ⟨1, 1⟩, ⟨⟨0, 3⟩, "<r>".toList⟩, some ⟨⟨77, 81⟩, "</r>".toList⟩⟩, false, false⟩,
      [.text "\n    ".toList, laidTarget.toNode, .text ['\n']]⟩, []⟩

theorem parse_text : Document.parse text = .ok document := by with_unfolding_all rfl

theorem hasNames_root : root.hasNames = true := by rfl

theorem leads_target : Leads ([['t']].map Step.named) root [0] target := by
  have found : root.findChild? (Step.named ['t']).accepts = some (0, target) := by rfl
  exact .down found .here

theorem names_fields : ∀ field ∈ fields.entries, isElementName field.1 = true := by
  intro field mem
  obtain rfl := List.mem_singleton.1 mem
  rfl

theorem inert_markers (n : Nat) : (markers n).Inert := by
  unfold markers
  decide

theorem update_text : update text ([['t']].map Step.named) fields .standard markers = .ok updated := by
  decide +kernel

theorem parse_updated : Document.parse updated.text = .ok laidDocument := by with_unfolding_all rfl

theorem leads_laidTarget : Leads ([['t']].map Step.named) laidDocument.root [1] laidTarget := by
  have found : laidDocument.root.findChild? (Step.named ['t']).accepts = some (1, laidTarget) := by rfl
  exact .down found .here

end TwoTexts

open TwoTexts in
/-- The element with one text still has that text. -/
theorem update_keeps_others_twoTexts :
    AtMostOneMark text ∧ Document.parse text = .ok document ∧ root.hasNames = true ∧
    Leads ([['t']].map Step.named) root [0] target ∧
    (∀ field ∈ fields.entries, isElementName field.1 = true) ∧
    (∀ n < maxAttempts, (markers n).Inert) ∧
    update text ([['t']].map Step.named) fields .standard markers = .ok updated ∧
    plain.text = ['z'] ∧ ∃ d' p' t' c', Document.parse updated.text = .ok d' ∧
      Leads ([['t']].map Step.named) d'.root p' t' ∧ (elements t'.children)[1]? = some c' ∧
      c'.name = ['q'] ∧ c'.text = ['z'] := by
  have one : AtMostOneMark text := by decide
  obtain ⟨d', p', t', parsed, leads, others⟩ := update_keeps_others one parse_text hasNames_root
    leads_target names_fields (fun n _ => inert_markers n) update_text
  have own : plain.text = ['z'] := by with_unfolding_all rfl
  have few : plain.texts.length ≤ 1 := by decide
  have unnamed : ∀ v ∈ fields.written, v.1 ≠ plain.name := by decide
  obtain ⟨c', found, same⟩ := others 1 plain rfl unnamed
  have unaltered : Unaltered plain c' := by
    have := same []
    cases this
    assumption
  exact ⟨one, parse_text, hasNames_root, leads_target, names_fields, fun n _ => inert_markers n,
    update_text, own, d', p', t', c', parsed, leads, found, unaltered.name,
    (unaltered.text few).trans own⟩

open TwoTexts in
/-- The spaces between two texts do not stay: the element with two texts has another text. -/
theorem not_text_update_mixed :
    AtMostOneMark text ∧ Document.parse text = .ok document ∧ document.root.hasNames = true ∧
    Leads ([['t']].map Step.named) document.root [0] target ∧
    (∀ field ∈ fields.entries, isElementName field.1 = true) ∧
    update text ([['t']].map Step.named) fields .standard markers = .ok updated ∧
    Document.parse updated.text = .ok laidDocument ∧
    Leads ([['t']].map Step.named) laidDocument.root [1] laidTarget ∧
    (elements target.children)[0]? = some mixed ∧ (∀ v ∈ fields.written, v.1 ≠ mixed.name) ∧
    (elements laidTarget.children)[0]? = some laidMixed ∧
    mixed.text = "x  y".toList ∧ laidMixed.text = "xy".toList := by
  refine ⟨by decide, parse_text, hasNames_root, leads_target, names_fields, update_text, parse_updated,
    leads_laidTarget, rfl, by decide, rfl, ?_, ?_⟩ <;> with_unfolding_all rfl

end XmlGraft
