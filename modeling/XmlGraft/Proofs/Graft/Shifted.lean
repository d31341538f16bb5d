/-
  Shifted — a graft whose marker is found too early.

  A marker is counted without overlap and replaced where it stands first.  Where the text before the
  element ends as the marker begins, it may stand there too, some characters earlier.  The
  replacement is then put there, and the text of the graft is not the one that was meant.  But it is
  still a document with the elements that were meant: what is displaced are characters of texts,
  from one side of the element to the other.

  1. **The first place** (`replaceFirst_of_occurrences`): what is replaced begins with these
     characters, and as many of the marker stay behind it.  The two places overlap, since a marker
     that stands twice without overlap would be counted twice.

  2. **Inert characters** (`Inert`): they belong to the texts around the element, for markup ends in
     `>` (`exists_shortened`, `exists_extended`).  A text may lose them at its end or get them at
     its front, and stays a text that can be read.

  3. **Reading** (`exists_parse_graft`): whatever the markers are, the text of a graft is read with
     the elements of the edited tree.  Only the texts beside the one that was laid out can be
     others.

  No condition is put on the supply here but that its markers are made of inert characters, which
  are those that begin or end no markup and no reference.  So the result covers the supplies that
  the other modules exclude, at a price: texts beside the element may differ, and what is said is
  about elements.
-/
import Mathlib.Data.Bool.Basic
import Mathlib.Data.Nat.Find
import XmlGraft.Proofs.Graft.Regraft
import XmlGraft.Proofs.Graft.Supplies

namespace XmlGraft

open Markup

/-! ## The first place -/

namespace Text

/-- A text that stands somewhere stands first there or before. -/
theorem exists_endsFirst (m before after : Text) : ∃ front rest,
    before ++ m ++ after = front ++ m ++ rest ∧ front.length ≤ before.length ∧ EndsFirst m front := by
  classical
  have stands : m <+: (before ++ m ++ after).drop before.length := by
    rw [List.append_assoc, List.drop_left]
    exact List.prefix_append _ _
  have somewhere : ∃ j, m <+: (before ++ m ++ after).drop j := ⟨_, stands⟩
  -- the least place at which it stands
  obtain ⟨j, ⟨rest, here⟩, least, early⟩ : ∃ j, m <+: (before ++ m ++ after).drop j ∧
      (∀ i < j, ¬ m <+: (before ++ m ++ after).drop i) ∧ j ≤ before.length :=
    ⟨Nat.find somewhere, Nat.find_spec somewhere, fun i hi => Nat.find_min somewhere hi,
      Nat.find_min' somewhere stands⟩
  have length : (before.take j).length = j := List.length_take_of_le early
  have front : (before ++ (m ++ after)).take j = before.take j := List.take_append_of_le_length early
  have whole : before ++ m ++ after = before.take j ++ m ++ rest := by
    rw [List.append_assoc _ m rest, here, ← front, ← List.append_assoc, List.take_append_drop]
  refine ⟨before.take j, rest, whole, by omega, fun i hi first => ?_⟩
  rw [length] at hi
  refine least i hi ?_
  rw [whole]
  exact (prefix_drop_append (by omega)).2 first

/-- **What is counted once is replaced** where it was put, or so many characters earlier as the text before
    it ends with characters that it begins with; as many of its own then stay behind. -/
theorem replaceFirst_of_occurrences {m before after : Text} (some_marker : m ≠ [])
    (once : occurrences m (before ++ m ++ after) = 1) (r : Text) :
    ∃ front early late, before = front ++ early ∧ (∀ c ∈ early ++ late, c ∈ m) ∧
      replaceFirst (before ++ m ++ after) m r = front ++ r ++ (late ++ after) := by
  obtain ⟨front, rest, whole, le, first⟩ := exists_endsFirst m before after
  obtain ⟨early, rfl⟩ : ∃ early, front ++ early = before := by
    have shorter : front <+: before ++ m ++ after := ⟨m ++ rest, by rw [whole, List.append_assoc]⟩
    have longer : before <+: before ++ m ++ after := ⟨m ++ after, (List.append_assoc _ _ _).symm⟩
    exact List.prefix_of_prefix_length_le shorter longer le
  -- the two places overlap, for there are not two of them
  have overlap : early.length < m.length := by
    by_contra apart
    have earlier : m <+: (front ++ early ++ m ++ after).drop front.length := by
      rw [whole, List.append_assoc, List.drop_left]
      exact List.prefix_append _ _
    have later : m <+: (front ++ early ++ m ++ after).drop (front ++ early).length := by
      rw [List.append_assoc _ m, List.drop_left]
      exact List.prefix_append _ _
    have twice := two_le_occurrences some_marker earlier later (by rw [List.length_append]; omega)
    omega
  have behind : early ++ m ++ after = m ++ rest := by
    simp only [List.append_assoc, List.append_cancel_left_eq] at whole ⊢
    exact whole
  -- the marker reaches into the text behind it by as many characters as it began earlier
  obtain ⟨late, both, rfl⟩ : ∃ late, early ++ m = m ++ late ∧ rest = late ++ after := by
    rcases List.append_eq_append_iff.1 behind with ⟨gap, marker, rfl⟩ | ⟨late, both, rfl⟩
    · have length := congrArg List.length marker
      simp only [List.length_append] at length
      obtain rfl := List.eq_nil_of_length_eq_zero (l := early) (by omega)
      obtain rfl := List.eq_nil_of_length_eq_zero (l := gap) (by omega)
      exact ⟨[], by simp, rfl⟩
    · exact ⟨late, both, rfl⟩
  refine ⟨front, early, late, rfl, fun c hc => ?_, ?_⟩
  · have inside : early <+: m := List.prefix_of_prefix_length_le (List.prefix_append early m)
      (both ▸ List.prefix_append m late) (Nat.le_of_lt overlap)
    rcases List.mem_append.1 hc with hc | hc
    · exact inside.subset hc
    · have among : c ∈ early ++ m := both ▸ List.mem_append_right m hc
      exact (List.mem_append.1 among).elim (inside.subset ·) id
  · rw [replaceFirst, cut?_eq_some_iff.2 ⟨whole, first⟩]

end Text

/-! ## Inert characters -/

/-- **Inert**: no character of markup or of a reference.  The markers that are drawn are such: letters,
    digits and underscores between two `@`. -/
def Text.Inert (t : Text) : Prop := ∀ c ∈ t, c ∉ ['<', '>', '&', ';']

instance (t : Text) : Decidable t.Inert :=
  decidable_of_iff ((t.all fun c => c != '<' && c != '>' && c != '&' && c != ';') = true) (by
    simp [Text.Inert, and_assoc])

theorem Text.Inert.ne {t : Text} (h : t.Inert) {c : Char} (hc : c ∈ t) :
    c ≠ '<' ∧ c ≠ '&' ∧ c ≠ ';' := by
  have none := h c hc
  simp only [List.mem_cons, List.not_mem_nil, or_false, not_or] at none
  exact ⟨none.1, none.2.2⟩

theorem Text.Inert.plain {t : Text} (h : t.Inert) : Graft.PlainMarker t :=
  fun c hc mark => h c hc (List.mem_append_left [';'] mark)

/-- Characters that are inert stand behind what ends in `>`. -/
theorem Text.Inert.behind {before text front early : Text} (inert : early.Inert)
    (last : before = [] ∨ before.getLast? = some '>') (whole : before ++ text = front ++ early) :
    ∃ rest, front = before ++ rest ∧ text = rest ++ early := by
  rcases List.append_eq_append_iff.1 whole with ⟨rest, rfl, rfl⟩ | ⟨gap, rfl, rfl⟩
  · exact ⟨rest, rfl, rfl⟩
  · rcases List.eq_nil_or_concat gap with rfl | ⟨gap, c, rfl⟩
    · exact ⟨[], by simp, rfl⟩
    · rw [List.concat_eq_append, ← List.append_assoc] at last
      rcases last with none | last
      · exact absurd none (by simp)
      · rw [List.getLast?_concat, Option.some_inj] at last
        exact absurd (inert c (by simp)) (by simp [last])

namespace Graft

/-- **What is no text** is written with `>` at its end, and inert characters are not among those
    that could stand there. -/
theorem last_written_of_legible {n : Node} (legible : n.Every Node.Legible) (markup : n.isText = false) :
    n.written.getLast? = some '>' := by
  have own := legible.own
  cases n with
  | element tag children =>
    obtain ⟨sound, -, -⟩ := own
    rw [Node.written]
    split
    · next single =>
      obtain ⟨content, -, written, -⟩ := sound.single (Bool.and_eq_true_iff.1 single).2
      rw [written, Token.last_written rfl]
    · obtain ⟨content, -, written, -⟩ := sound.closing
      rw [written, List.getLast?_append, Token.last_written rfl]
      rfl
  | text => cases markup
  | comment raw =>
    obtain ⟨body, -, written⟩ := own
    rw [Node.written, written, Token.last_written rfl]
  | other markup =>
    obtain ⟨token, kind, -, written⟩ := own
    rw [Node.written, written, Token.last_written]
    cases token <;> first | rfl | cases kind

/-- Nodes, the last of which is no text, are written with `>` at their end. -/
theorem last_writtenAll {ns : List Node} (legible : ∀ n ∈ ns, n.Every Node.Legible)
    (markup : ∀ n ∈ ns.getLast?, n.isText = false) :
    writtenAll ns = [] ∨ (writtenAll ns).getLast? = some '>' := by
  rcases List.eq_nil_or_concat ns with rfl | ⟨front, n, rfl⟩
  · exact .inl rfl
  · rw [List.concat_eq_append] at legible markup ⊢
    have own := last_written_of_legible (legible n (by simp)) (markup n (by simp))
    refine .inr ?_
    rw [writtenAll_append, writtenAll_cons, writtenAll_nil, List.append_nil, List.getLast?_append, own]
    rfl

/-- The front of a text, when what stands behind it is inert. -/
theorem legible_text_front {rest early : Text} (h : (Node.text (rest ++ early)).Every Node.Legible)
    (inert : early.Inert) (some_text : rest ≠ []) : (Node.text rest).Every Node.Legible := by
  obtain ⟨chunk, value, resolved⟩ := h.own
  obtain ⟨w, -, own⟩ := (resolve_eq_ok_iff.1 resolved).split_back rfl fun c hc => (inert.ne hc).2
  exact .leaf rfl ⟨⟨some_text, fun c hc => chunk.plain c (List.mem_append_left _ hc)⟩, w,
    resolve_eq_ok_iff.2 own⟩

/-- **Nodes without inert characters at their end**: these are characters of the last text, which
    becomes shorter or goes; the elements stay. -/
theorem exists_shortened {ns : List Node} (chain : ns.IsChain Separate)
    (legible : ∀ n ∈ ns, n.Every Node.Legible) {front early : Text} (inert : early.Inert)
    (whole : writtenAll ns = front ++ early) :
    ∃ ns', writtenAll ns' = front ∧ elements ns' = elements ns ∧ ns'.IsChain Separate ∧
      ∀ n ∈ ns', n.Every Node.Legible := by
  rcases last_cases ns with ⟨before, raw, rfl⟩ | markup
  · obtain ⟨chain_before, -, meet⟩ := List.isChain_append.1 chain
    rw [List.forall_mem_append, List.forall_mem_singleton] at legible
    -- before a text stands none
    have markup : ∀ n ∈ before.getLast?, n.isText = false := by
      intro n hn
      by_contra text
      have apart := meet n hn (.text raw) rfl (Bool.eq_true_of_not_eq_false text)
      cases apart
    have text (raw : Text) : writtenAll (before ++ [.text raw]) = writtenAll before ++ raw ∧
        elements (before ++ [.text raw]) = elements before := by
      rw [writtenAll_append, elements_append]
      exact ⟨congrArg _ (List.append_nil raw), List.append_nil _⟩
    rw [(text raw).1] at whole
    obtain ⟨rest, rfl, rfl⟩ := inert.behind (last_writtenAll legible.1 markup) whole
    -- the last text may be used up, and then it goes
    by_cases nothing : rest = []
    · rw [nothing, List.append_nil, (text _).2]
      exact ⟨before, rfl, rfl, chain_before, legible.1⟩
    · refine ⟨before ++ [.text rest], (text rest).1, by rw [(text _).2, (text _).2], ?_, ?_⟩
      · exact List.isChain_append.2 ⟨chain_before, .singleton _, fun a ha _ _ =>
          separate_left (markup a ha)⟩
      · exact List.forall_mem_append.2 ⟨legible.1, List.forall_mem_singleton.2
          (legible_text_front legible.2 inert nothing)⟩
  · -- behind markup there are no inert characters
    have split : writtenAll ns ++ [] = front ++ early := by rw [List.append_nil, whole]
    obtain ⟨rest, -, none⟩ := inert.behind (last_writtenAll legible markup) split
    rw [(List.append_eq_nil_iff.1 none.symm).2, List.append_nil] at whole
    exact ⟨ns, whole, rfl, chain, legible⟩

/-- **Nodes with a text in front of them**: the first text goes on there, or a text comes before
    the first node; the elements stay. -/
theorem exists_extended {ns : List Node} (chain : ns.IsChain Separate)
    (legible : ∀ n ∈ ns, n.Every Node.Legible) {late : Text}
    (own : late ≠ [] → (Node.text late).Every Node.Legible) :
    ∃ ns', writtenAll ns' = late ++ writtenAll ns ∧ elements ns' = elements ns ∧
      ns'.IsChain Separate ∧ ∀ n ∈ ns', n.Every Node.Legible := by
  by_cases nothing : late = []
  · exact ⟨ns, by rw [nothing, List.nil_append], rfl, chain, legible⟩
  have own := own nothing
  by_cases markup : ∀ n ∈ ns.head?, n.isText = false
  · exact ⟨.text late :: ns, rfl, rfl, isChain_cons_of_head (fun m hm => separate_right (markup m hm)) chain,
      List.forall_mem_cons.2 ⟨own, legible⟩⟩
  · -- the nodes begin with a text, which gets the characters at its front
    obtain ⟨raw, behind, rfl⟩ : ∃ raw behind, ns = .text raw :: behind := by
      rcases ns with _ | ⟨_ | raw | _ | _, behind⟩
      · exact absurd (by simp) markup
      · exact absurd (by simp [Node.isText]) markup
      · exact ⟨raw, behind, rfl⟩
      · exact absurd (by simp [Node.isText]) markup
      · exact absurd (by simp [Node.isText]) markup
    rw [List.forall_mem_cons] at legible
    rw [List.isChain_cons] at chain
    refine ⟨.text (late ++ raw) :: behind, ?_, rfl, ?_, ?_⟩
    · rw [writtenAll_cons, writtenAll_cons, Node.written, Node.written, List.append_assoc]
    · exact List.isChain_cons.2 ⟨fun m hm _ => chain.1 m hm rfl, chain.2⟩
    · exact List.forall_mem_cons.2 ⟨legible_text_append own legible.1, legible.2⟩

/-! ## Reading -/

/-- **A parent after a graft**: its elements are those it had, but for one that says what it said. -/
structure Kept (parent : Element) (front : List Node) (element : Element) (back : List Node)
    (parent' : Element) : Prop where
  tag : parent'.tag = parent.tag
  elements : ∃ element', element'.gist = element.gist ∧
    elements parent'.children = elements front ++ element' :: elements back

/-- **The text around a replacement** is that of the nodes around it, but for inert characters that
    may have come from one side to the other. -/
theorem exists_kept {s : Surroundings} (proper : s.Proper) {parent element : Element}
    {front back : List Node} (legible : parent.Legible)
    (children : parent.children = front ++ element.toNode :: back) {before early late : Text}
    (inert : (early ++ late).Inert) (whole : writtenAll (cutLayout front) = before ++ early) :
    ∃ parent', Kept parent front element back parent' ∧ parent'.Legible ∧
      parent'.written = parent.tag.opening ++ (before ++ (s.replacement element back.isEmpty
        ++ (late ++ writtenAll back))) ++ parent.tag.closing := by
  obtain ⟨sound, named, chain, below⟩ := Element.legible_iff.1 legible
  rw [children] at chain below
  obtain ⟨chain_front, chain_behind, -⟩ := List.isChain_append.1 chain
  have chain_back : back.IsChain Separate := chain_behind.tail
  rw [List.forall_mem_append, List.forall_mem_cons] at below
  obtain ⟨legible_front, legible_element, legible_back⟩ := below
  obtain ⟨chain_cut, legible_cut⟩ := legible_cutLayout chain_front legible_front
  obtain ⟨ns, written_ns, elements_ns, chain_ns, legible_ns⟩ := exists_shortened chain_cut legible_cut
    (fun c hc => inert c (List.mem_append_left _ hc)) whole
  have some_text : s.margin.breakAt 0 ≠ [] :=
    fun nothing => proper.margin.ne_nil (List.append_eq_nil_iff.1 nothing).1
  have spaced := legible_addSpaces some_text (proper.margin.isFiller_breakAt 0) chain_ns legible_ns
  -- behind the last element the break comes first
  have own : (if back.isEmpty then s.terminator ++ s.base else []) ++ late ≠ [] →
      (Node.text ((if back.isEmpty then s.terminator ++ s.base else []) ++ late)).Every Node.Legible := by
    intro some_late
    have plain (c : Char) (hc : c ∈ (if back.isEmpty then s.terminator ++ s.base else []) ++ late) :
        c ≠ '<' ∧ c ≠ '&' := by
      rcases List.mem_append.1 hc with hc | hc
      · split at hc
        · have filler := isFiller_lastBreak proper c hc
          exact ⟨fun e => (e ▸ filler).not_mem (by simp), fun e => (e ▸ filler).not_mem (by simp)⟩
        · cases hc
      · have own := inert.ne (List.mem_append_right _ hc)
        exact ⟨own.1, own.2.1⟩
    exact .leaf rfl ⟨⟨some_late, fun c hc => (plain c hc).1⟩, _,
      resolve_eq_ok_iff.2 (.of_plain fun c hc => (plain c hc).2)⟩
  obtain ⟨ns', written_ns', elements_ns', behind⟩ := exists_extended chain_back legible_back own
  obtain ⟨chain', below'⟩ :=
    legible_around spaced (legible_laidElement proper.margin legible_element 0) behind
  refine ⟨⟨parent.tag, addSpaces ns (s.margin.breakAt 0)
    ++ (s.margin.laidElement 0 element).toNode :: ns'⟩, ⟨rfl, ?_⟩, ?_, ?_⟩
  · refine ⟨s.margin.laidElement 0 element, gist_laidElement proper.margin 0 element, ?_⟩
    rw [elements_append, elements_addSpaces, elements_ns, elements_cutLayout, elements_toNode, elements_ns']
  · exact Element.legible_iff.2 ⟨sound, named, chain', below'⟩
  · rw [Element.written, Element.toNode, written_of_ne_nil (by simp), writtenAll_append,
      writtenAll_addSpaces, writtenAll_cons, written_ns, written_ns', replacement_eq, Element.written]
    simp only [List.append_assoc]

/-- **The text of a graft is read with the elements of the edited tree**, whatever markers are
    drawn.  A marker that is replaced too early moves some of its letters from one side of the
    element to the other, and leaves every element as it is. -/
theorem exists_parse_graft {text : Text} {d : Document} (read : d.Read text) {root : Element}
    (legible : root.Legible) {target : Address} {s : Settings} {markers : Nat → Text} {g : Grafted}
    (done : graft { d with root } target s markers = .ok g) {p : List Nat} {front back : List Node}
    {parent element : Element} (site : site? root target = .ok ⟨⟨p⟩, front.length⟩)
    (found : root.below? p = some parent)
    (children : parent.children = front ++ element.toNode :: back)
    (drawn : ∀ n < maxAttempts, (markers n).Inert) :
    ∃ parent' root' d', Kept parent front element back parent' ∧
      root.changeBelow? (fun _ => parent') p = some root' ∧ Document.parse g.text = .ok d' ∧
      d'.root.bare = root'.bare := by
  obtain ⟨left, right, written, -, context⟩ := Element.below?_context found
  have legible_parent := Element.every_below? legible found
  have tree : ∃ parent' root', Kept parent front element back parent' ∧
      root.changeBelow? (fun _ => parent') p = some root' ∧ root'.Legible ∧
      g.text = d.prolog ++ root'.written ++ d.epilog := by
    rcases graft_outcome done site found children with
      ⟨pristine, rfl⟩ | ⟨changed, unit, anchor, text, count, -, -, placed, rfl⟩
    · have same := Element.changeBelow?_of_fixed (f := fun _ => parent) found rfl
      refine ⟨parent, root, ⟨rfl, element, rfl, ?_⟩, same, legible, rfl⟩
      rw [children, elements_append, elements_toNode]
    · obtain ⟨k, hk, place⟩ := exists_of_firstPlaced placed
      obtain ⟨accepted, replaced⟩ := of_placed? place
      obtain ⟨some_marker, once⟩ := of_isSome_placed? accepted
      have inert := drawn k (by omega)
      rw [mark_eq (d := { d with root }) found context inert.plain] at once replaced
      obtain ⟨before, early, late, whole, among, result⟩ := Text.replaceFirst_of_occurrences some_marker
        once ((Surroundings.of { d with root } s unit anchor).replacement element back.isEmpty)
      have both : (early ++ late).Inert := fun c hc => inert c (among c hc)
      -- what comes too early belongs to the text before the element: the start tag ends in `>`
      have last : (d.prolog ++ left ++ parent.tag.opening).getLast? = some '>' := by
        obtain ⟨content, -, opening, -⟩ := (Element.legible_iff.1 legible_parent).1.opening
        rw [List.getLast?_append, opening, Token.last_written rfl]
        rfl
      obtain ⟨before, rfl, own⟩ := Text.Inert.behind (fun c hc => both c (List.mem_append_left _ hc))
        (.inr last) whole
      obtain ⟨parent', kept, legible', written'⟩ :=
        exists_kept (proper_of { d with root } s unit anchor) legible_parent children both own
      obtain ⟨root', changed'⟩ := Element.exists_changeBelow? found fun _ => parent'
      refine ⟨parent', root', kept, changed', legible.changeBelow? found legible' changed', ?_⟩
      rw [replaced, result, context _ _ changed', written']
      simp only [List.append_assoc]
  obtain ⟨parent', root', kept, changed, legible', text_eq⟩ := tree
  obtain ⟨f, prolog, epilog⟩ := read.frame
  obtain ⟨d', parsed, -, -, bare, -⟩ := Document.parse_written f legible'
  rw [prolog, epilog, ← text_eq] at parsed
  exact ⟨parent', root', d', kept, changed, parsed, bare⟩

end Graft

end XmlGraft
