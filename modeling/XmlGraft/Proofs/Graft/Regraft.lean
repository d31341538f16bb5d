/-
  Regraft — the tree that the text of a graft is read as.

  A graft makes a text out of texts.  What is wanted is the tree that is read from it.  So the text
  is shown to be the written form of a tree, which is legible, and legible trees are read back as
  they are.  That tree is the edited one with other children at one parent (`regraft`), and all that
  is to be known of a graft is read off from these.

  1. **The new children** (`regraft`): the element as it is laid out, between the children that
     stood around it, with spaces where lines break.  Spaces behind a text belong to that text when
     they are read, so they are put into it (`addSpaces`); otherwise two texts would stand next to
     each other.

  2. **What they keep**: their text is the one that the graft writes (`writtenAll_regraft`), their
     elements are those that stood there (`elements_regraft`), they say what the children said
     (`gistAll_regraft`), and they are legible (`legible_regraft`).

  3. **Reading** (`parse_graft`): the text of a graft is read as the edited tree when the element at
     the site did not change, and as the tree with the new children when it did.

  4. **Gist** (`Regrafted.gist`): either tree says what the edited tree says, layout apart.

  The spaces at the end of a text are where this tree departs from the one in memory.  The break
  before the element is a node of its own in the latter, and goes on in the text before it when the
  new text is read.  A second graft drops nodes of spaces only, so what it finds there is the first
  thing to look at when grafts are repeated.
-/
import XmlGraft.Proofs.Graft.LaidTree
import XmlGraft.Proofs.Graft.Marker
import XmlGraft.Proofs.Markup.Documents

namespace XmlGraft

open Markup

namespace Graft

/-! ## Surroundings of a site -/

/-- **Proper surroundings**: lines end as lines do, and the indentation is blank. -/
structure Surroundings.Proper (s : Surroundings) : Prop where
  terminator : s.terminator = ['\n'] ∨ s.terminator = ['\r', '\n']
  base : ∀ c ∈ s.base, Text.isBlank c = true

/-- The margin of the lines at a site is proper. -/
theorem Surroundings.Proper.margin {s : Surroundings} (h : s.Proper) : s.margin.Proper := by
  refine ⟨h.terminator, fun c hc => ?_⟩
  rcases List.mem_append.1 hc with hc | hc
  · exact h.base c hc
  · exact isBlank_indent _ _ c hc

theorem Surroundings.Proper.ne_nil {s : Surroundings} (h : s.Proper) : s.terminator ≠ [] :=
  h.margin.ne_nil

theorem terminator_cases (e : LineEnding) (text : Text) :
    e.terminator text = ['\n'] ∨ e.terminator text = ['\r', '\n'] := by
  cases e with
  | auto =>
    rw [LineEnding.terminator, dominantEnding]
    split
    · exact .inr rfl
    · exact .inl rfl
  | lf => exact .inl rfl
  | crlf => exact .inr rfl

/-- The surroundings of a site are proper. -/
theorem proper_of (d : Document) (s : Settings) (unit : IndentUnit) (anchor : Position) :
    (Surroundings.of d s unit anchor).Proper := by
  refine ⟨terminator_cases _ _, fun c hc => ?_⟩
  rw [Surroundings.of] at hc
  simp only [Source.baseIndent] at hc
  -- the base is cut from the source, as far as it is blank
  split at hc
  · cases hc
  · exact List.mem_takeWhile_imp (List.mem_of_mem_take hc)

/-! ## The new children -/

/-- Nodes with spaces behind them; text at their end goes on in them. -/
def addSpaces (ns : List Node) (spaces : Text) : List Node :=
  match ns.getLast? with
  | some (.text raw) => ns.dropLast ++ [.text (raw ++ spaces)]
  | _ => ns ++ [.text spaces]

/-- Nodes end in text, or in something else, or there are none. -/
theorem last_cases (ns : List Node) :
    (∃ front raw, ns = front ++ [.text raw]) ∨ ∀ n ∈ ns.getLast?, n.isText = false := by
  rcases List.eq_nil_or_concat ns with rfl | ⟨front, n, rfl⟩
  · exact .inr (by simp)
  · rw [List.concat_eq_append, List.getLast?_concat]
    cases n with
    | text raw => exact .inl ⟨front, raw, rfl⟩
    | _ => exact .inr fun n hn => by cases hn; rfl

/-- **Spaces behind nodes** go into a text that stands last, or are a text of their own.  A reader
    makes one text node of characters that stand together, so there is no third way. -/
theorem addSpaces_cases (ns : List Node) (spaces : Text) :
    (∃ front raw, ns = front ++ [.text raw] ∧ addSpaces ns spaces = front ++ [.text (raw ++ spaces)]) ∨
    ((∀ n ∈ ns.getLast?, n.isText = false) ∧ addSpaces ns spaces = ns ++ [.text spaces]) := by
  rcases last_cases ns with ⟨front, raw, rfl⟩ | markup
  · refine .inl ⟨front, raw, rfl, ?_⟩
    rw [addSpaces, List.getLast?_concat, List.dropLast_concat]
  · refine .inr ⟨markup, ?_⟩
    rw [addSpaces]
    split
    · next raw last => exact absurd (markup _ last) (by simp [Node.isText])
    · rfl

theorem writtenAll_addSpaces (ns : List Node) (spaces : Text) :
    writtenAll (addSpaces ns spaces) = writtenAll ns ++ spaces := by
  rcases addSpaces_cases ns spaces with ⟨front, raw, rfl, e⟩ | ⟨-, e⟩ <;> rw [e]
  · simp [Node.written]
  · simp [Node.written]

theorem elements_addSpaces (ns : List Node) (spaces : Text) :
    elements (addSpaces ns spaces) = elements ns := by
  rcases addSpaces_cases ns spaces with ⟨front, raw, rfl, e⟩ | ⟨-, e⟩ <;> rw [e]
  · rw [elements_append, elements_append]
    rfl
  · rw [elements_append]
    exact List.append_nil _

/-- **They say nothing**, and a text says the same with them as without, for what a text says is
    trimmed. -/
theorem gistAll_addSpaces {ns : List Node} {spaces : Text} (blank : Text.isSpaces spaces = true) :
    gistAll (addSpaces ns spaces) = gistAll ns := by
  rcases addSpaces_cases ns spaces with ⟨front, raw, rfl, e⟩ | ⟨-, e⟩ <;> rw [e]
  · cases layout : Text.isSpaces raw <;>
      simp [gistAll_append, gistAll, Node.isLayout, Text.isSpaces_append, blank, layout, Node.gist,
        Text.trim_append_spaces blank]
  · simp [gistAll_append, gistAll, Node.isLayout, blank]

/-- One text behind another is a text. -/
theorem legible_text_append {s t : Text} (h : (Node.text s).Every Node.Legible)
    (h' : (Node.text t).Every Node.Legible) : (Node.text (s ++ t)).Every Node.Legible := by
  obtain ⟨chunk, value, resolved⟩ := h.own
  obtain ⟨chunk', value', resolved'⟩ := h'.own
  refine .leaf rfl ⟨⟨by simp [chunk.ne_nil], fun c hc => ?_⟩, value ++ value', resolve_eq_ok_iff.2
    ((resolve_eq_ok_iff.1 resolved).append (resolve_eq_ok_iff.1 resolved'))⟩
  exact (List.mem_append.1 hc).elim (chunk.plain c) (chunk'.plain c)

theorem legible_addSpaces {ns : List Node} {spaces : Text} (some_text : spaces ≠ [])
    (filler : ∀ c ∈ spaces, IsFiller c) (chain : ns.IsChain Separate)
    (legible : ∀ n ∈ ns, n.Every Node.Legible) :
    (addSpaces ns spaces).IsChain Separate ∧ ∀ n ∈ addSpaces ns spaces, n.Every Node.Legible := by
  have own := legible_filler some_text filler
  -- the spaces belong to the text that stands last, or are a text behind something else
  rcases addSpaces_cases ns spaces with ⟨front, raw, rfl, e⟩ | ⟨last, e⟩ <;> rw [e]
  · obtain ⟨chain_front, -, meet⟩ := List.isChain_append.1 chain
    refine ⟨List.isChain_append.2 ⟨chain_front, .singleton _, fun a ha b hb text => ?_⟩,
      fun n hn => ?_⟩
    · -- the text that stood last was separate from what is before it, and is so with more spaces
      have := meet a ha (.text raw) rfl text
      cases this
    · rcases List.mem_append.1 hn with hn | hn
      · exact legible n (List.mem_append_left _ hn)
      · obtain rfl := List.mem_singleton.1 hn
        exact legible_text_append (legible (.text raw) (by simp)) own
  · refine ⟨List.isChain_append.2 ⟨chain, .singleton _, fun a ha _ _ => separate_left (last a ha)⟩,
      fun n hn => ?_⟩
    rcases List.mem_append.1 hn with hn | hn
    · exact legible n hn
    · obtain rfl := List.mem_singleton.1 hn
      exact own

/-- Cutting takes away one text of spaces, or nothing. -/
theorem cutLayout_cases (ns : List Node) :
    cutLayout ns = ns ∨ ∃ raw, Text.isSpaces raw = true ∧ ns = cutLayout ns ++ [.text raw] := by
  rcases List.eq_nil_or_concat ns with rfl | ⟨front, n, rfl⟩
  · exact .inl rfl
  · rw [List.concat_eq_append, cutLayout, List.getLast?_concat, Option.any_some, List.dropLast_concat]
    split
    · next layout =>
      cases n with
      | text raw => exact .inr ⟨raw, layout, rfl⟩
      | _ => cases layout
    · exact .inl rfl

/-- What is left when spaces are cut is legible. -/
theorem legible_cutLayout {ns : List Node} (chain : ns.IsChain Separate)
    (legible : ∀ n ∈ ns, n.Every Node.Legible) :
    (cutLayout ns).IsChain Separate ∧ ∀ n ∈ cutLayout ns, n.Every Node.Legible := by
  rcases cutLayout_cases ns with e | ⟨raw, -, e⟩
  · rw [e]
    exact ⟨chain, legible⟩
  · rw [e] at chain legible
    exact ⟨(List.isChain_append.1 chain).1, fun n hn => legible n (List.mem_append_left _ hn)⟩

/-- An element between legible nodes. -/
theorem legible_around {front back : List Node} {e : Element}
    (before : front.IsChain Separate ∧ ∀ n ∈ front, n.Every Node.Legible) (own : e.Legible)
    (behind : back.IsChain Separate ∧ ∀ n ∈ back, n.Every Node.Legible) :
    (front ++ e.toNode :: back).IsChain Separate ∧
      ∀ n ∈ front ++ e.toNode :: back, n.Every Node.Legible := by
  constructor
  · refine List.isChain_append.2 ⟨before.1, ?_, ?_⟩
    · exact isChain_cons_of_head (fun _ _ => separate_left rfl) behind.1
    · intro a _ b hb
      cases hb
      exact separate_right rfl
  · rw [List.forall_mem_append, List.forall_mem_cons]
    exact ⟨before.2, own, behind.2⟩

theorem elements_cutLayout (ns : List Node) : elements (cutLayout ns) = elements ns := by
  rcases cutLayout_cases ns with e | ⟨raw, -, e⟩
  · rw [e]
  · conv => rhs; rw [e, elements_append]
    exact (List.append_nil _).symm

/-- What stands behind an element: the break before its parent's end tag, when nothing else does. -/
def withLastBreak (s : Surroundings) (back : List Node) : List Node :=
  if back.isEmpty then [.text (s.terminator ++ s.base)] else back

/-- **The children of a parent after a graft.** -/
def regraft (s : Surroundings) (front : List Node) (element : Element) (back : List Node) :
    List Node :=
  addSpaces (cutLayout front) (s.margin.breakAt 0) ++ (s.margin.laidElement 0 element).toNode :: withLastBreak s back

theorem isFiller_lastBreak {s : Surroundings} (proper : s.Proper) :
    ∀ c ∈ s.terminator ++ s.base, IsFiller c := by
  intro c hc
  rcases List.mem_append.1 hc with hc | hc
  · exact proper.margin.isFiller_terminator c hc
  · exact .inr (.inr (proper.base c hc))

/-- They are written as the graft writes them. -/
theorem writtenAll_regraft (s : Surroundings) (front : List Node) (element : Element)
    (back : List Node) :
    writtenAll (regraft s front element back)
      = writtenAll (cutLayout front) ++ (s.replacement element back.isEmpty ++ writtenAll back) := by
  rw [regraft, writtenAll_append, writtenAll_cons, writtenAll_addSpaces, replacement_eq]
  cases back with
  | nil => simp [withLastBreak, Node.written, Element.written]
  | cons n ns => simp [withLastBreak, Element.written]

/-- Their elements are the elements that stood there, but for the one that is laid out. -/
theorem elements_regraft (s : Surroundings) (front : List Node) (element : Element)
    (back : List Node) :
    elements (regraft s front element back)
      = elements front ++ s.margin.laidElement 0 element :: elements back := by
  rw [regraft, elements_append, elements_addSpaces, elements_cutLayout, elements_toNode]
  cases back <;> rfl

/-- **They say what the children said**, layout apart: the spaces before the element go, breaks
    come, and the laid element says what the element does. -/
theorem gistAll_regraft {s : Surroundings} (proper : s.Proper) (front : List Node) (element : Element)
    (back : List Node) :
    gistAll (regraft s front element back) = gistAll (front ++ element.toNode :: back) := by
  have spaces {t : Text} (filler : ∀ c ∈ t, IsFiller c) : Text.isSpaces t = true :=
    Text.isSpaces_iff.2 fun c hc => (filler c hc).isSpace
  have cut : gistAll (cutLayout front) = gistAll front := by
    rcases cutLayout_cases front with e | ⟨raw, layout, e⟩
    · rw [e]
    · have nothing : gistAll [.text raw] = [] := gistAll_of_layout (by simp [Node.isLayout, layout])
      conv => rhs; rw [e, gistAll_append, nothing]
      exact (List.append_nil _).symm
  have own (e : Element) (ns : List Node) : gistAll (e.toNode :: ns) = e.gist.toNode :: gistAll ns := rfl
  -- a last break is layout
  have tail : gistAll (withLastBreak s back) = gistAll back := by
    cases back with
    | nil =>
      refine gistAll_of_layout ?_
      simp [withLastBreak, Node.isLayout, spaces (isFiller_lastBreak proper)]
    | cons n ns => rfl
  rw [regraft, gistAll_append, gistAll_append, own, own, tail,
    gistAll_addSpaces (spaces (proper.margin.isFiller_breakAt 0)), cut, gist_laidElement proper.margin]

/-- **They are legible** when the children were.  Breaks that come next to a text are joined to
    it, which is why the tree is not simply the children with breaks between them. -/
theorem legible_regraft {s : Surroundings} (proper : s.Proper) {front back : List Node}
    {element : Element} (chain : (front ++ element.toNode :: back).IsChain Separate)
    (legible : ∀ n ∈ front ++ element.toNode :: back, n.Every Node.Legible) :
    (regraft s front element back).IsChain Separate ∧
      ∀ n ∈ regraft s front element back, n.Every Node.Legible := by
  obtain ⟨chain_front, chain_back, -⟩ := List.isChain_append.1 chain
  rw [List.forall_mem_append, List.forall_mem_cons] at legible
  obtain ⟨legible_front, legible_element, legible_back⟩ := legible
  have cut := legible_cutLayout chain_front legible_front
  have some_text : s.margin.breakAt 0 ≠ [] :=
    fun nothing => proper.margin.ne_nil (List.append_eq_nil_iff.1 nothing).1
  obtain ⟨chain_spaces, legible_spaces⟩ :=
    legible_addSpaces some_text (proper.margin.isFiller_breakAt 0) cut.1 cut.2
  have tail : (withLastBreak s back).IsChain Separate ∧
      ∀ n ∈ withLastBreak s back, n.Every Node.Legible := by
    cases back with
    | nil =>
      refine ⟨.singleton _, fun n hn => ?_⟩
      obtain rfl := List.mem_singleton.1 hn
      exact legible_filler (by simp [proper.ne_nil]) (isFiller_lastBreak proper)
    | cons n ns => exact ⟨chain_back.tail, legible_back⟩
  exact legible_around ⟨chain_spaces, legible_spaces⟩
    (legible_laidElement proper.margin legible_element 0) tail

/-! ## Reading the text of a graft -/

/-- **The tree that the text of a graft is read as**: the edited tree, or the tree with the new
    children of the parent. -/
def Regrafted (root : Element) (p : List Nat) (parent : Element) (front : List Node) (element : Element)
    (back : List Node) (root' : Element) : Prop :=
  (element.isPristine = true ∧ root' = root) ∨
  (element.isPristine = false ∧ ∃ s : Surroundings, s.Proper ∧
    root.changeBelow? (fun _ => ⟨parent.tag, regraft s front element back⟩) p = some root')

/-- Either tree says what the edited tree says, layout apart. -/
theorem Regrafted.gist {root parent element root' : Element} {p : List Nat} {front back : List Node}
    (h : Regrafted root p parent front element back root') (found : root.below? p = some parent)
    (children : parent.children = front ++ element.toNode :: back) : root'.gist = root.gist := by
  rcases h with ⟨-, rfl⟩ | ⟨-, s, proper, changed⟩
  · rfl
  · have kept := Element.changeBelow?_of_fixed (f := fun _ => parent) found rfl
    refine Element.gist_changeBelow? found ?_ changed kept
    rw [Element.gist, Element.gist, children, gistAll_regraft proper]

/-- **The regrafted tree is legible** if the edited one is, so writing it and reading it back
    gives it again. -/
theorem Regrafted.legible {root parent element root' : Element} {p : List Nat} {front back : List Node}
    (h : Regrafted root p parent front element back root') (found : root.below? p = some parent)
    (children : parent.children = front ++ element.toNode :: back) (legible : root.Legible) :
    root'.Legible := by
  rcases h with ⟨-, rfl⟩ | ⟨-, s, proper, changed⟩
  · exact legible
  · obtain ⟨sound, named, chain, below⟩ := Element.legible_iff.1 (Element.every_below? legible found)
    rw [children] at chain below
    obtain ⟨chain', below'⟩ := legible_regraft proper chain below
    exact legible.changeBelow? found (Element.legible_iff.2 ⟨sound, named, chain', below'⟩) changed

/-- **The text of a graft is read as the regrafted tree**, in the frame of the document.  The
    graft itself builds no tree: it puts lines into a text, and this tree is the one that writes
    it. -/
theorem parse_graft {text : Text} {d : Document} (read : d.Read text) {root : Element}
    (legible : root.Legible) {target : Address} {s : Settings} {markers : Nat → Text} {g : Grafted}
    (done : graft { d with root } target s markers = .ok g) {p : List Nat} {front back : List Node}
    {parent element : Element} (site : site? root target = .ok ⟨⟨p⟩, front.length⟩)
    (found : root.below? p = some parent)
    (children : parent.children = front ++ element.toNode :: back)
    (unmistakable : Unmistakable { d with root } target markers) :
    ∃ root' d', Regrafted root p parent front element back root' ∧ Document.parse g.text = .ok d' ∧
      d'.prolog = d.prolog ∧ d'.epilog = d.epilog ∧ d'.root.bare = root'.bare ∧
      AtMostOneMark g.text := by
  obtain ⟨left, right, written, -, context⟩ := Element.below?_context found
  have tree : ∃ root', Regrafted root p parent front element back root' ∧
      g.text = d.prolog ++ root'.written ++ d.epilog := by
    rcases graft_cases done site found children unmistakable context with
      ⟨pristine, rfl⟩ | ⟨changed, unit, anchor, -, -, -, -, result⟩
    · exact ⟨root, .inl ⟨pristine, rfl⟩, rfl⟩
    · -- the parent with the new children, in its place in the edited tree
      obtain ⟨root', regrafted⟩ := Element.exists_changeBelow? found fun _ => ⟨parent.tag,
        regraft (Surroundings.of { d with root } s unit anchor) front element back⟩
      refine ⟨root', .inr ⟨changed, _, proper_of _ _ _ _, regrafted⟩, ?_⟩
      rw [result, context _ _ regrafted, Element.written, Element.toNode,
        written_of_ne_nil (by simp [regraft]), writtenAll_regraft]
      simp only [List.append_assoc]
  -- the text is a legible tree in the frame of the document, and so is read back
  obtain ⟨root', regrafted, text_eq⟩ := tree
  obtain ⟨f, prolog, epilog⟩ := read.frame
  obtain ⟨d', parsed, prolog', epilog', bare, one⟩ :=
    Document.parse_written f (regrafted.legible found children legible)
  rw [prolog, epilog, ← text_eq] at parsed one
  exact ⟨root', d', regrafted, parsed, prolog'.trans prolog, epilog'.trans epilog, bare, one⟩

end Graft

end XmlGraft
