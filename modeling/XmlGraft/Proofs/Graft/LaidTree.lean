/-
  LaidTree — what laying out a tree keeps.

  A laid tree has other texts of spaces than the tree that it was made of, and its comments are
  moved.  Whatever is said of an element after a graft is said of a laid one; so all that is to be
  kept of the element has to be kept by this step.

  1. **Legible** (`legible_laidElement`): a legible tree is laid out as a legible tree.  Breaks are
     put before tags and comments and never next to a text, so no two texts come together
     (`isChain_laidAll`).

  2. **Elements** (`elements_laidAll`): its elements are those of the tree, laid out one level
     deeper.  So a walk by names goes to the same places.

  3. **Values** (`holds_laidElement`): an element that holds a trimmed value still holds it.
     Without the condition this fails, for texts are trimmed on the way.

  4. **Gist** (`gist_laidElement`): it says what the tree says, layout apart.  What is layout is
     decided for each node by itself, so that the gist of a list is made node by node, as the laid
     list is.

  The gist is defined for this: names, attributes, other markup, texts without the spaces around
  them, and comments line by line.  It is not what one would compare two documents by, for two texts
  that stand next to each other are two texts in it; but no text is next to another in a legible
  tree.
-/
import XmlGraft.Proofs.Edit.Places
import XmlGraft.Proofs.Graft.Comments
import XmlGraft.Proofs.Markup.References

namespace XmlGraft

open Markup

/-! ## Gist -/

namespace Markup

mutual

/-- **What a node says, layout apart**: text of spaces is left out, other text is trimmed, and so is
    each line of a comment. -/
def Node.gist : Node → Node
  | .element tag children => .element tag.bare (gistAll children)
  | .text raw => .text (Text.trim raw)
  | .comment raw =>
    .comment (Text.join ['\n'] ((Text.splitOn '\n' (commentBody raw)).map Text.trim))
  | .other markup => .other markup

/-- What nodes say, layout apart. -/
def gistAll : List Node → List Node
  | [] => []
  | n :: ns => if n.isLayout then gistAll ns else n.gist :: gistAll ns

end

/-- **What an element says, layout apart**: names, attributes with their values, and contents. -/
def Element.gist (e : Element) : Element := ⟨e.tag.bare, gistAll e.children⟩

theorem gist_toNode (e : Element) : e.toNode.gist = e.gist.toNode := rfl

theorem gistAll_append (ns ns' : List Node) : gistAll (ns ++ ns') = gistAll ns ++ gistAll ns' := by
  induction ns with
  | nil => rfl
  | cons n ns ih =>
    rw [List.cons_append, gistAll, gistAll, ih]
    split <;> rfl

/-- Layout says nothing. -/
theorem gistAll_of_layout {ns : List Node} (h : ns.all Node.isLayout = true) : gistAll ns = [] := by
  induction ns with
  | nil => rfl
  | cons n ns ih =>
    rw [List.all_cons, Bool.and_eq_true] at h
    rw [gistAll, if_pos h.1, ih h.2]

theorem isLayout_bare (n : Node) : n.bare.isLayout = n.isLayout := by cases n <;> rfl

/-- What a tree remembers of its source is no part of what it says. -/
theorem gist_bare (n : Node) : n.bare.gist = n.gist := by
  induction n using Node.induct with
  | element tag children ih =>
    rw [Node.bare, Node.gist, Node.gist, Tag.bare_bare]
    congr 1
    -- the children one by one, since each of them may be left out as layout
    induction children with
    | nil => rfl
    | cons n ns ih' =>
      rw [List.forall_mem_cons] at ih
      rw [bareAll, gistAll, gistAll, isLayout_bare, ih.1, ih' ih.2]
  | _ => rfl

theorem Element.gist_of_bare {e e' : Element} (h : e.bare = e'.bare) : e.gist = e'.gist := by
  refine toNode_inj ?_
  rw [← gist_toNode, ← gist_toNode, ← gist_bare e.toNode, ← gist_bare e'.toNode, bare_toNode,
    bare_toNode, h]

/-- Elements that say the same in one place of a tree make up trees that say the same. -/
theorem Element.gist_changeBelow? {e e₁ e₂ a : Element} {f g : Element → Element} {p : List Nat}
    (h : e.below? p = some a) (same : (f a).gist = (g a).gist)
    (left : e.changeBelow? f p = some e₁) (right : e.changeBelow? g p = some e₂) :
    e₁.gist = e₂.gist := by
  induction p generalizing e e₁ e₂ with
  | nil =>
    cases h
    cases left
    cases right
    exact same
  | cons i p ih =>
    obtain ⟨front, c, back, children, rfl, found⟩ := below?_cons.1 h
    rw [changeBelow?_cons children, Option.map_eq_some_iff] at left right
    obtain ⟨c₁, left, rfl⟩ := left
    obtain ⟨c₂, right, rfl⟩ := right
    have below := congrArg Element.toNode (ih found left right)
    rw [← gist_toNode, ← gist_toNode] at below
    have element (x : Element) : x.toNode.isLayout = false := rfl
    simp only [Element.gist, gistAll_append, gistAll, element, below]

end Markup

namespace Graft

open Layout

/-! ## Legible -/

theorem legible_filler {t : Text} (some_text : t ≠ []) (filler : ∀ c ∈ t, IsFiller c) :
    (Node.text t).Every Node.Legible := by
  refine .leaf rfl ⟨⟨some_text, fun c hc => ?_⟩, t, resolve_eq_ok_iff.2 (.of_plain fun c hc => ?_)⟩
  · rintro rfl
    exact (filler _ hc).not_mem (by simp)
  · rintro rfl
    exact (filler _ hc).not_mem (by simp)

/-- **A break is a legible text**: it is not empty, and has no character that is markup.  A
    terminator alone makes it so, hence a margin has to have one. -/
theorem legible_breakAt {m : Margin} (proper : m.Proper) (depth : Nat) :
    (Node.text (m.breakAt depth)).Every Node.Legible := by
  refine legible_filler ?_ (proper.isFiller_breakAt depth)
  intro nothing
  exact proper.ne_nil (List.append_eq_nil_iff.1 nothing).1

/-- A text with content can be trimmed, and something is left. -/
theorem chunk_trim {raw : Text} (chunk : Chunk raw) (content : Text.isSpaces raw = false) :
    Chunk (Text.trim raw) := by
  refine ⟨Text.trim_ne_nil content, fun c hc => chunk.plain c ?_⟩
  obtain ⟨before, after, -, -, whole⟩ := Text.eq_trim raw
  rw [whole]
  simp [hc]

/-- Behind text that begins no line nothing that is laid out begins with text. -/
theorem isText_head_laidAll {m : Margin} {depth : Nat} {ns : List Node}
    (h : ∀ n ∈ ns.head?, n.isText = false) :
    ∀ x ∈ (m.laidAll depth false ns).head?, x.isText = false := by
  cases ns with
  | nil =>
    intro x hx
    cases hx
  | cons n ns =>
    have own := h n rfl
    intro x hx
    cases n with
    | text raw => cases own
    | element tag children => cases hx; rfl
    | comment raw => cases hx; rfl
    | other markup => cases hx; rfl

theorem isText_laid (m : Margin) (depth : Nat) (n : Node) :
    (m.laid depth n).isText = n.isText := by cases n <;> rfl

theorem isText_of_beginsLine {n : Node} (h : n.beginsLine = true) : n.isText = false := by
  cases n with
  | text raw => cases h
  | _ => rfl

/-- No text meets text in a content that is laid out. -/
theorem isChain_laidAll (m : Margin) (depth : Nat) {ns : List Node} (chain : ns.IsChain Separate)
    (fresh : Bool) : (m.laidAll depth fresh ns).IsChain Separate := by
  induction ns generalizing fresh with
  | nil =>
    rw [Margin.laidAll]
    cases fresh
    · exact .nil
    · exact .singleton _
  | cons n ns ih =>
    have rest := ih chain.tail
    rw [Margin.laidAll]
    split
    · -- a text of spaces goes, and its neighbours were no texts
      exact rest fresh
    · have own : (m.laid (depth + 1) n :: m.laidAll depth n.beginsLine ns).IsChain Separate := by
        refine isChain_cons_of_head ?_ (rest _)
        cases text : n.isText with
        | false => exact fun _ _ => separate_left (by rw [isText_laid, text])
        -- no break is put behind a text, and the node that follows it in the chain is no text
        | true =>
          have inline : n.beginsLine = false := by
            cases n with
            | text raw => rfl
            | _ => cases text
          rw [inline]
          intro x hx
          refine separate_right (isText_head_laidAll (fun k hk => ?_) x hx)
          exact (List.isChain_cons.1 chain).1 k hk text
      split
      · next both =>
        obtain ⟨-, begins⟩ := Bool.and_eq_true_iff.1 both
        refine isChain_cons_of_head (fun x hx => separate_right ?_) own
        cases hx
        rw [isText_laid, isText_of_beginsLine begins]
      · exact own

/-- What holds of the breaks and of each node that is laid out holds of a laid content. -/
theorem forall_mem_laidAll {m : Margin} {depth : Nat} {P : Node → Prop}
    (breaks : ∀ depth, P (.text (m.breakAt depth))) {ns : List Node}
    (each : ∀ n ∈ ns, n.isLayout = false → P (m.laid (depth + 1) n)) (fresh : Bool) :
    ∀ x ∈ m.laidAll depth fresh ns, P x := by
  induction ns generalizing fresh with
  | nil =>
    rw [Margin.laidAll]
    cases fresh
    · simp
    · simpa using breaks depth
  | cons n ns ih =>
    rw [List.forall_mem_cons] at each
    rw [Margin.laidAll]
    -- either the node is layout and goes, or it stays behind a break or without one
    split
    · exact ih each.2 fresh
    · next content =>
      have own : ∀ x ∈ m.laid (depth + 1) n :: m.laidAll depth n.beginsLine ns, P x := by
        rw [List.forall_mem_cons]
        exact ⟨each.1 (Bool.eq_false_iff.2 content), ih each.2 _⟩
      split
      · rw [List.singleton_append, List.forall_mem_cons]
        exact ⟨breaks _, own⟩
      · exact own

/-- **A legible node is laid out as a legible one**, at every depth.  Layout itself is excluded,
    for it is left out and not laid out. -/
theorem legible_laid {m : Margin} (proper : m.Proper) {n : Node} (h : n.Every Node.Legible) :
    n.isLayout = false → ∀ depth, (m.laid depth n).Every Node.Legible := by
  induction n using Node.induct with
  | element tag children ih =>
    intro _ depth
    obtain ⟨⟨-, named, chain⟩, below⟩ := every_element.1 h
    rw [Margin.laid]
    refine every_element.2 ⟨⟨named.bare.sound rfl, named.bare, ?_⟩, ?_⟩
    · split
      · exact .nil
      · exact isChain_laidAll m depth chain true
    · split
      · simp
      · exact forall_mem_laidAll (legible_breakAt proper)
          (fun n hn content => ih n hn (below n hn) content _) true
  | text raw =>
    intro content depth
    obtain ⟨chunk, value, resolved⟩ := h.own
    obtain ⟨-, w, -, -, -, -, -, trimmed⟩ := (resolve_eq_ok_iff.1 resolved).trim
    exact .leaf rfl ⟨chunk_trim chunk content, w, resolve_eq_ok_iff.2 trimmed⟩
  | comment raw =>
    intro _ depth
    obtain ⟨body, lexeme, rfl⟩ := h.own
    refine .leaf rfl ⟨m.movedBody depth body, lexeme_comment (endsFirst_movedBody proper depth ?_), ?_⟩
    · exact endsFirst_of_lexeme lexeme
    · rw [flow_commentPiece, commentBody_written]
  | other markup =>
    intro _ depth
    exact .leaf rfl h.own

/-- **A legible element is laid out as a legible one.**  A break stands only where a line begins
    on both sides of it, and a text begins none, so no break comes to stand next to a text. -/
theorem legible_laidElement {m : Margin} (proper : m.Proper) {e : Element} (h : e.Legible)
    (depth : Nat) : (m.laidElement depth e).Legible := by
  rw [Element.Legible, ← laid_toNode]
  exact legible_laid proper h rfl depth

/-! ## Gist -/

/-- What is laid out is layout exactly when it was layout before. -/
theorem isLayout_laid (m : Margin) (depth : Nat) (n : Node) :
    (m.laid depth n).isLayout = n.isLayout := by
  cases n with
  | text raw => exact Text.isSpaces_trim raw
  | _ => rfl

theorem isLayout_breakAt {m : Margin} (proper : m.Proper) (depth : Nat) :
    (Node.text (m.breakAt depth)).isLayout = true :=
  Text.isSpaces_iff.2 fun c hc => (proper.isFiller_breakAt depth c hc).isSpace

/-- **What a laid content says**: breaks are layout and add nothing, and so what was said by the
    nodes is what the laid nodes say. -/
theorem gistAll_laidAll {m : Margin} (proper : m.Proper) {depth : Nat} {ns : List Node}
    (h : ∀ n ∈ ns, (m.laid (depth + 1) n).gist = n.gist) (fresh : Bool) :
    gistAll (m.laidAll depth fresh ns) = gistAll ns := by
  have breaks := isLayout_breakAt proper
  induction ns generalizing fresh with
  | nil =>
    rw [Margin.laidAll]
    cases fresh
    · rfl
    · simp [gistAll, breaks]
  | cons n ns ih =>
    rw [List.forall_mem_cons] at h
    rw [Margin.laidAll, gistAll]
    split
    · exact ih h.2 fresh
    · next content =>
      have own : gistAll (m.laid (depth + 1) n :: m.laidAll depth n.beginsLine ns)
          = n.gist :: gistAll ns := by
        rw [gistAll, if_neg (by rw [isLayout_laid]; exact content), h.1, ih h.2]
      split
      · rw [List.singleton_append, gistAll, if_pos (breaks _)]
        exact own
      · exact own

/-- A laid node says what the node says, at every depth. -/
theorem gist_laid {m : Margin} (proper : m.Proper) (n : Node) :
    ∀ depth, (m.laid depth n).gist = n.gist := by
  induction n using Node.induct with
  | element tag children ih =>
    intro depth
    rw [Margin.laid, Node.gist, Node.gist, Tag.bare_bare]
    congr 1
    split
    · -- a content of layout alone is left out altogether
      next layout => rw [gistAll_of_layout layout, gistAll]
    · exact gistAll_laidAll proper (fun n hn => ih n hn _) true
  | text raw =>
    intro depth
    rw [Margin.laid, Node.gist, Node.gist, Text.trim_trim]
  | comment raw =>
    intro depth
    rw [Margin.laid, Node.gist, Node.gist, flow_commentPiece, commentBody_written,
      map_trim_movedBody proper]
  | other markup =>
    intro depth
    rfl

/-- **A laid element says what the element says**: name, attributes, trimmed texts, and the lines
    of comments, trimmed, are all where they were. -/
theorem gist_laidElement {m : Margin} (proper : m.Proper) (depth : Nat) (e : Element) :
    (m.laidElement depth e).gist = e.gist := by
  refine toNode_inj ?_
  rw [← gist_toNode, ← laid_toNode, gist_laid proper, gist_toNode]

/-! ## Elements and values -/

theorem elements_of_layout {ns : List Node} (h : ns.all Node.isLayout = true) : elements ns = [] := by
  rw [elements, List.filterMap_eq_nil_iff]
  intro n hn
  have := List.all_eq_true.1 h n hn
  cases n with
  | text raw => rfl
  | _ => cases this

/-- **The elements of a laid content** are the elements, each laid out one level deeper.  Their
    order stays, so the first of a name is still the first. -/
theorem elements_laidAll (m : Margin) (depth : Nat) (fresh : Bool) (ns : List Node) :
    elements (m.laidAll depth fresh ns) = (elements ns).map (m.laidElement (depth + 1)) := by
  induction ns generalizing fresh with
  | nil =>
    rw [Margin.laidAll]
    cases fresh <;> rfl
  | cons n ns ih =>
    rw [Margin.laidAll]
    split
    · next layout =>
      rw [ih, elements_cons_of_none]
      cases n with
      | text raw => rfl
      | _ => cases layout
    · have own : elements (m.laid (depth + 1) n :: m.laidAll depth n.beginsLine ns)
          = (elements (n :: ns)).map (m.laidElement (depth + 1)) := by
        cases n with
        | element tag children =>
          rw [show Node.element tag children = (⟨tag, children⟩ : Element).toNode from rfl, laid_toNode,
            elements_toNode, elements_toNode, ih, List.map_cons]
        | _ => exact ih _
      split
      · rw [List.singleton_append, elements_cons_of_none rfl]
        exact own
      · exact own

/-- The elements in a laid element are those of the element, laid out. -/
theorem elements_laidElement (m : Margin) (depth : Nat) (e : Element) :
    elements (m.laidElement depth e).children
      = (elements e.children).map (m.laidElement (depth + 1)) := by
  rw [Margin.laidElement]
  show elements (if e.children.all Node.isLayout then [] else m.laidAll depth true e.children) = _
  split
  · next layout => rw [elements_of_layout layout]; rfl
  · exact elements_laidAll m depth true e.children

/-- **A trimmed value survives being laid out.**  A single text begins no line and is trimmed,
    which takes nothing away from the text for such a value. -/
theorem holds_laidElement (m : Margin) (depth : Nat) {e : Element} {value : Text}
    (trimmed : Text.trim value = value) (h : e.holds value = true) :
    (m.laidElement depth e).holds value = true := by
  rw [Element.holds] at h
  split at h
  · next nothing =>
    rw [Margin.laidElement, nothing]
    exact h
  · -- one text, which is trimmed as text and must be so as a value
    next raw only =>
    obtain rfl : resolveOrSame raw = value := eq_of_beq h
    have same := trim_eq_self_of_resolveOrSame trimmed
    cases layout : Text.isSpaces raw with
    | true =>
      -- the value is trimmed and made of spaces, so it is empty already
      have nothing : resolveOrSame raw = [] := by
        rw [resolveOrSame_of_isSpaces layout]
        exact isSpaces_eq_nil layout same
      rw [Margin.laidElement, only, nothing, if_pos (by simp [Node.isLayout, layout])]
      rfl
    | false =>
      have laid : (m.laidElement depth e).children = [.text raw] := by
        rw [Margin.laidElement, only, if_neg (by simp [Node.isLayout, layout]),
          Margin.laidAll, if_neg (by simp [Node.isLayout, layout]), Margin.laid, same]
        rfl
      rw [Element.holds, laid]
      exact h
  · cases h

end Graft

end XmlGraft
