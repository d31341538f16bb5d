/-
  RoundTrip — documents after edits, written and read back.

  There are two ways to write a document.  One puts every node together from its parts; the other
  copies from the source what no flag says was changed.  The second is the one that is used, and the
  first is the one that can be reasoned about.  They are shown to agree after any script of edits,
  and what holds of the first is then said of the second.

  1. **One text** (`Read.copied?_edited`): after any script, copying what did not change gives what
     putting everything together gives.

  2. **Touched documents** (`copied?_touched`): taking lists of children in hand, anywhere in a
     document that was read, changes no byte of its text.  One touch leaves what is written, and
     where the elements are (`exists_editAt?_touch`); a run of them follows by induction, for the
     addresses that are still to come lead where they led.  This does not follow from reading alone:
     flags are raised all over the tree, so the writer can no longer copy it in one piece.

  3. **Edited documents** (`parse_edited`): what is written after a script of fresh edits is read
     back as the edited tree, with its texts joined.  Two texts that were put side by side cannot be
     told apart in what is written, so the tree that is read has one text for them.  For the same
     reason the tree is not legible as it stands; a legible one that is written alike is read
     instead.
-/
import XmlGraft.Proofs.Edit.Scripts

namespace XmlGraft

open Markup

/-! ## One text -/

namespace Markup

/-- **After a script**, copying what did not change and putting everything together give one text.
    Every node is grounded: a flag is raised wherever the source no longer says what the tree
    does. -/
theorem Document.Read.copied?_edited {text : Text} {d : Document} (read : d.Read text)
    {script : Script} (fresh : ∀ s ∈ script, s.2.Fresh) {root : Element}
    (edited : d.root.edited? script = some root) :
    ({ d with root } : Document).copied? = some ({ d with root } : Document).written := by
  refine copied?_of_grounded ?_
  show root.toNode.Every (Node.GroundedIn d.source.text)
  rw [read.source]
  exact (stable_grounded text).edited? fresh read.grounded edited

/-! ## Touched documents -/

namespace Element

/-- An index counts nodes, and a tree without its sources has the same number of them. -/
theorem childAt?_bare (e : Element) (i : Nat) : e.bare.childAt? i = (e.childAt? i).map bare := by
  have children : e.bare.children = e.children.map Node.bare := bareAll_eq_map _
  rw [childAt?, childAt?, children, List.getElem?_map]
  cases e.children[i]? with
  | none => rfl
  | some n => exact n.element?_bare

/-- Where an element is does not depend on what trees remember of their source. -/
theorem below?_bare (e : Element) (q : List Nat) : e.bare.below? q = (e.below? q).map bare := by
  induction q generalizing e with
  | nil => rfl
  | cons i q ih =>
    rw [below?, below?, childAt?_bare]
    cases e.childAt? i with
    | none => rfl
    | some c => exact ih c

/-- A change of what an element remembers is one of what the tree remembers. -/
theorem bare_changeBelow? {e e' a a' : Element} {q : List Nat} (found : e.below? q = some a)
    (same : a'.bare = a.bare) (changed : e.changeBelow? (fun _ => a') q = some e') :
    e'.bare = e.bare := by
  induction q generalizing e e' with
  | nil =>
    cases found
    cases changed
    exact same
  | cons i q ih =>
    obtain ⟨front, c, back, children, rfl, there⟩ := below?_cons.1 found
    rw [changeBelow?_cons children, Option.map_eq_some_iff] at changed
    obtain ⟨c', changed', rfl⟩ := changed
    have inner : c'.toNode.bare = c.toNode.bare := by
      rw [bare_toNode, bare_toNode, ih there changed']
    rw [bare, bare, children]
    simp only [bareAll_eq_map, List.map_append, List.map_cons, inner]

/-- The flag of the children does not bear on the parts that an element is put together from. -/
theorem written_touched (e : Element) : (e.editChildren id).written = e.written := by
  rw [written, written, toNode, toNode, Node.written, Node.written]
  rfl

/-- **Touching an element** changes flags only: the tree is written as before and says the same,
    so the next address of a list leads to the same element in it. -/
theorem exists_editAt?_touch {root : Element} {a : Address} (present : (root.at? a).isSome = true) :
    ∃ root', root.editAt? a .touch = some root' ∧ root'.written = root.written ∧
      root'.bare = root.bare := by
  obtain ⟨e, found⟩ := Option.isSome_iff_exists.1 present
  obtain ⟨root', changed⟩ := exists_changeBelow? found fun _ => e.editChildren id
  obtain ⟨left, right, before, -, context⟩ := below?_context found
  have same : (e.editChildren id).bare = e.bare := rfl
  refine ⟨root', ?_, ?_, bare_changeBelow? found same changed⟩
  · rw [editAt?, found]
    exact changed
  · rw [context _ _ changed, before, written_touched]

/-- **Touching elements one after the other** gives a tree that is written as before.  Each step
    gives a tree with the same nodes, in which the addresses that are left lead to an element
    again. -/
theorem exists_touched {root : Element} {addresses : List Address}
    (present : ∀ a ∈ addresses, (root.at? a).isSome = true) :
    ∃ root', root.edited? (addresses.map fun a => (a, .touch)) = some root' ∧
      root'.written = root.written := by
  induction addresses generalizing root with
  | nil => exact ⟨root, rfl, rfl⟩
  | cons a addresses ih =>
    rw [List.forall_mem_cons] at present
    -- the first touch, and then the others in the tree that it leaves
    obtain ⟨root₁, first, written, bare⟩ := exists_editAt?_touch present.1
    -- the elements that are still to be touched are where they were
    have still : ∀ b ∈ addresses, (root₁.at? b).isSome = true := by
      intro b mem
      have there := present.2 b mem
      rw [at?] at there ⊢
      have same := congrArg (fun e : Element => (e.below? b.indices).isSome) bare
      simp only [below?_bare, Option.isSome_map] at same
      rw [same, there]
    obtain ⟨root', rest, written'⟩ := ih still
    refine ⟨root', ?_, written'.trans written⟩
    rw [List.map_cons, edited?, List.foldlM_cons]
    simp only [first, Option.bind_eq_bind, Option.bind_some]
    exact rest

end Element

end Markup

/-- **Touched documents**: whichever elements of a document that was read have had their lists of
    children taken in hand, the document is copied as the text it was read from. -/
theorem copied?_touched {text : Text} {d : Document} {addresses : List Address}
    (one : AtMostOneMark text) (parsed : Document.parse text = .ok d)
    (present : ∀ a ∈ addresses, (d.root.at? a).isSome = true) :
    ∃ root, d.root.edited? (addresses.map fun a => (a, .touch)) = some root ∧
      ({ d with root } : Document).copied? = some text ∧
      ({ d with root } : Document).written = text := by
  have read := Document.read_of_parse one parsed
  obtain ⟨root, touched, written⟩ := Element.exists_touched present
  have fresh : ∀ s ∈ addresses.map (fun a => (a, Edit.touch)), s.2.Fresh := by
    intro s mem
    obtain ⟨a, -, rfl⟩ := List.mem_map.1 mem
    trivial
  have whole : ({ d with root } : Document).written = text := by
    rw [← read.written, Document.written, Document.written, written]
  refine ⟨root, touched, ?_, whole⟩
  rw [read.copied?_edited fresh touched, whole]

namespace Scripted

/-- Text and an empty element. -/
def text : Text := "<a>x<b/></a>".toList

/-- The tag of the root element. -/
def rootTag : Tag :=
  ⟨['a'], [], some ⟨some ⟨1, 1⟩, ⟨⟨0, 3⟩, "<a>".toList⟩, some ⟨⟨8, 12⟩, "</a>".toList⟩⟩, false, false⟩

/-- The tag of the child. -/
def childTag : Tag := ⟨['b'], [], some ⟨some ⟨1, 5⟩, ⟨⟨4, 8⟩, "<b/>".toList⟩, none⟩, false, false⟩

/-- What the text is read as. -/
def document : Document :=
  ⟨Source.ofText text, [], ⟨rootTag, [.text ['x'], .element childTag []]⟩, []⟩

theorem parse_text : Document.parse text = .ok document := by with_unfolding_all rfl

end Scripted

/-- Both elements of a small document, the inner one first. -/
theorem copied?_touched_scripted :
    AtMostOneMark Scripted.text ∧ Document.parse Scripted.text = .ok Scripted.document ∧
    (∀ a ∈ [Address.mk [1], Address.mk []], (Scripted.document.root.at? a).isSome = true) ∧
    ∃ root, Scripted.document.root.edited? [(⟨[1]⟩, .touch), (⟨[]⟩, .touch)] = some root ∧
      ({ Scripted.document with root } : Document).copied? = some Scripted.text ∧
      ({ Scripted.document with root } : Document).written = Scripted.text := by
  have one : AtMostOneMark Scripted.text := by decide
  have present : ∀ a ∈ [Address.mk [1], Address.mk []],
      (Scripted.document.root.at? a).isSome = true := by decide
  exact ⟨one, Scripted.parse_text, present, copied?_touched one Scripted.parse_text present⟩

/-! ## Edited documents -/

/-- **Round trip of edits**: after any script of fresh edits, what is written is read back, with the
    same prolog and epilog, as the edited tree with its texts joined. -/
theorem parse_edited {text : Text} {d : Document} {script : Script} {root : Element}
    (one : AtMostOneMark text) (parsed : Document.parse text = .ok d)
    (names : d.root.hasNames = true) (fresh : ∀ s ∈ script, s.2.Fresh)
    (edited : d.root.edited? script = some root) :
    ∃ out d', ({ d with root } : Document).copied? = some out ∧
      ({ d with root } : Document).written = out ∧ Document.parse out = .ok d' ∧
      d'.prolog = d.prolog ∧ d'.epilog = d.epilog ∧ d'.root.bare = root.joined.bare := by
  have read := Document.read_of_parse one parsed
  obtain ⟨f, prolog, epilog⟩ := read.frame
  -- a tree that was read can be written, and no edit takes that away
  have before : d.root.toNode.Every Node.Writable :=
    (read.legible names).imp fun _ legible => legible.writable
  have after : root.toNode.Every Node.Writable := stable_writable.edited? fresh before edited
  -- the writer gives what a legible tree is written as, which reading gives back
  obtain ⟨root', legible, written, bare⟩ := exists_legible after
  obtain ⟨d', parsed', prolog', epilog', bare', -⟩ := Document.parse_written f legible
  rw [prolog, epilog, written] at parsed'
  exact ⟨_, d', read.copied?_edited fresh edited, rfl, parsed', prolog'.trans prolog,
    epilog'.trans epilog, bare'.trans bare⟩

namespace Scripted

/-- A comment for the child, a text next to the one that is there, an attribute for the child. -/
def script : Script :=
  [(⟨[1]⟩, .append (.ofComment ['c'])), (⟨[]⟩, .insert 1 (.ofText ['<'])),
    (⟨[2]⟩, .setAttribute ['k'] ['v'])]

/-- The root element after the script. -/
def root : Element :=
  ⟨{ rootTag with contentChanged := true },
    [.text ['x'], .text "&lt;".toList,
      .element { childTag with attributes := [⟨['k'], ['v']⟩], contentChanged := true, tagChanged := true }
        [.comment "<!--c-->".toList]]⟩

theorem fresh_script : ∀ s ∈ script, s.2.Fresh := by
  refine List.forall_mem_cons.2 ⟨fresh_ofComment (by decide), List.forall_mem_cons.2
    ⟨fresh_ofText _, List.forall_mem_singleton.2 ?_⟩⟩
  show isElementName ['k'] = true
  with_unfolding_all rfl

end Scripted

/-- The script is made, and its document is read back with the two texts joined. -/
theorem parse_edited_scripted :
    AtMostOneMark Scripted.text ∧ Document.parse Scripted.text = .ok Scripted.document ∧
    Scripted.document.root.hasNames = true ∧ (∀ s ∈ Scripted.script, s.2.Fresh) ∧
    Scripted.document.root.edited? Scripted.script = some Scripted.root ∧
    ∃ d', Document.parse "<a>x&lt;<b k=\"v\"><!--c--></b></a>".toList = .ok d' ∧
      d'.prolog = [] ∧ d'.epilog = [] ∧ d'.root.bare = Scripted.root.joined.bare := by
  have one : AtMostOneMark Scripted.text := by decide
  have names : Scripted.document.root.hasNames = true := by with_unfolding_all rfl
  have edited : Scripted.document.root.edited? Scripted.script = some Scripted.root := by with_unfolding_all rfl
  obtain ⟨out, d', -, written, parsed, prolog, epilog, bare⟩ :=
    parse_edited one Scripted.parse_text names Scripted.fresh_script edited
  have out_eq : out = "<a>x&lt;<b k=\"v\"><!--c--></b></a>".toList := written.symm.trans (by with_unfolding_all rfl)
  rw [out_eq] at parsed
  exact ⟨one, Scripted.parse_text, names, Scripted.fresh_script, edited, d', parsed, prolog, epilog,
    bare⟩

end XmlGraft
