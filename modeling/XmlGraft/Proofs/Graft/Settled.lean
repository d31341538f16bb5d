/-
  Settled — what was laid out once stays as it is when it is laid out again.

  Layout drops texts of spaces, trims texts, moves comments and puts in breaks.  Done a second time,
  at the same margin and depth, each of these finds what it left.  For texts and breaks this is seen
  node by node.  Comments are the difficult part: the shared indentation of the moved lines has to
  be the margin they were moved to, and the lines have to be found again in the text that they were
  put into.

  1. **Lines** (`linesOf_flow`): lines that are put behind one another are taken apart into the same
     lines, where carriage returns stand only at line ends.  A lone return at the end of a line
     would become a part of its terminator.

  2. **Comments** (`movedBody_movedBody`): moved lines share the margin they were moved to, so that
     moving them to it changes nothing.  What was left of their own indentation has no common
     beginning, or more would have been taken off (`sharedIndent_moveLines`).

  3. **Trees** (`laid_laid`): a laid tree is laid out as itself, since breaks are left out and put
     back where they stood.

  The condition on carriage returns is about comments only, and it cannot be dropped.  A return in
  the middle of a line stays there; but where a line ends in two of them, each layout takes one for
  a part of the line end, so that a second one changes the text again.
-/
import XmlGraft.Proofs.Graft.LaidTree

namespace XmlGraft

/-! ## Lines -/

namespace Text

/-- **Carriage returns end lines**: each of them stands directly before a line feed. -/
def ReturnsEndLines : Text → Prop
  | [] => True
  | c :: t => (c = '\r' → t.head? = some '\n') ∧ ReturnsEndLines t

instance decidableReturnsEndLines : (t : Text) → Decidable (ReturnsEndLines t)
  | [] => .isTrue trivial
  | c :: t =>
    have := decidableReturnsEndLines t
    inferInstanceAs (Decidable ((c = '\r' → t.head? = some '\n') ∧ ReturnsEndLines t))

theorem ReturnsEndLines.drop {s t : Text} (h : ReturnsEndLines (s ++ t)) : ReturnsEndLines t := by
  induction s with
  | nil => exact h
  | cons c s ih => exact ih h.2

/-- Returns end lines in front of what begins with no line feed. -/
theorem ReturnsEndLines.front {s t : Text} (h : ReturnsEndLines (s ++ t)) (other : t.head? ≠ some '\n') :
    ReturnsEndLines s := by
  induction s with
  | nil => trivial
  | cons c s ih =>
    refine ⟨fun isReturn => ?_, ih h.2⟩
    have next := h.1 isReturn
    cases s with
    | nil => exact absurd next other
    | cons d s => exact next

/-- **No line holds a carriage return**, where returns end lines. -/
theorem not_mem_dropReturn {t : Text} (h : ReturnsEndLines t) :
    ∀ piece ∈ splitOn '\n' t, '\r' ∉ dropReturn piece := by
  induction t with
  | nil =>
    intro piece mem
    rw [splitOn, List.mem_singleton] at mem
    rw [mem]
    exact List.not_mem_nil
  | cons c t ih =>
    have rest := ih h.2
    rw [splitOn]
    split
    · -- a line feed ends a line that has nothing on it so far
      exact List.forall_mem_cons.2 ⟨List.not_mem_nil, rest⟩
    · next other =>
      split
      · next nothing => exact absurd nothing of_mem_splitOn.1
      · next first more pieces =>
        rw [pieces, List.forall_mem_cons] at rest
        refine List.forall_mem_cons.2 ⟨?_, rest.2⟩
        by_cases isReturn : c = '\r'
        · -- the line ends behind the return, so that nothing else is on it
          obtain ⟨t', rfl⟩ := List.head?_eq_some_iff.1 (h.1 isReturn)
          rw [splitOn, if_pos rfl] at pieces
          obtain ⟨rfl, -⟩ := List.cons.inj pieces
          rw [isReturn]
          have same : dropReturn ['\r'] = [] := dropReturn_append []
          rw [same]
          exact List.not_mem_nil
        · have front := dropReturn_append_cons [] isReturn first
          rw [List.nil_append, List.nil_append] at front
          rw [front]
          exact List.not_mem_cons_of_ne_of_not_mem (Ne.symm isReturn) rest.1

end Text

namespace Graft

open Markup Layout Text

/-- **Lines put behind one another are taken apart again.** -/
theorem linesOf_flow {m : Margin} (proper : m.Proper) {first : Text} {more : List Text}
    (clean : ∀ line ∈ first :: more, '\n' ∉ line ∧ '\r' ∉ line) :
    linesOf (first ++ more.flatMap (m.terminator ++ ·)) = first :: more := by
  induction more generalizing first with
  | nil =>
    obtain ⟨no_feed, no_return⟩ := clean first (List.mem_singleton_self _)
    rw [List.flatMap_nil, List.append_nil, linesOf_eq, splitOn_of_not_mem no_feed, List.map_singleton,
      dropReturn_of_not_mem no_return]
  | cons second more ih =>
    rw [List.forall_mem_cons] at clean
    obtain ⟨⟨no_feed, no_return⟩, clean⟩ := clean
    have rest := ih clean
    rw [linesOf_eq] at rest ⊢
    rcases proper.terminator with e | e
    · rw [e] at rest ⊢
      have whole : first ++ (second :: more).flatMap (['\n'] ++ ·)
          = first ++ '\n' :: (second ++ more.flatMap (['\n'] ++ ·)) := by simp
      rw [whole, splitOn_append no_feed, List.map_cons, rest, dropReturn_of_not_mem no_return]
    · rw [e] at rest ⊢
      have whole : first ++ (second :: more).flatMap (['\r', '\n'] ++ ·)
          = (first ++ ['\r']) ++ '\n' :: (second ++ more.flatMap (['\r', '\n'] ++ ·)) := by simp
      -- the return of the terminator comes to stand at the end of the line, and is dropped there
      have no_feed' : '\n' ∉ first ++ ['\r'] := by simpa using no_feed
      rw [whole, splitOn_append no_feed', List.map_cons, rest, dropReturn_append]

/-! ## Comments -/

theorem commonStart_append (p a b : Text) : commonStart (p ++ a) (p ++ b) = p ++ commonStart a b := by
  induction p with
  | nil => rfl
  | cons c p ih => rw [List.cons_append, List.cons_append, commonStart, if_pos rfl, ih, List.cons_append]

/-- What all texts begin with is a common beginning. -/
theorem foldl_commonStart_append (p first : Text) (more : List Text) :
    (more.map (p ++ ·)).foldl commonStart (p ++ first) = p ++ more.foldl commonStart first := by
  induction more generalizing first with
  | nil => rfl
  | cons t more ih => rw [List.map_cons, List.foldl_cons, List.foldl_cons, commonStart_append, ih]

/-- A line moved by a margin begins with the margin and what is left of its own blanks. -/
theorem leadingBlanks_append {margin : Text} (blank : ∀ c ∈ margin, isBlank c = true) (t : Text) :
    leadingBlanks (margin ++ t) = margin ++ leadingBlanks t :=
  List.takeWhile_append_of_pos blank

theorem leadingBlanks_drop {shared line : Text} (h : shared <+: leadingBlanks line) :
    leadingBlanks line = shared ++ leadingBlanks (line.drop shared.length) := by
  obtain ⟨rest, e⟩ := h.trans (List.takeWhile_prefix _)
  have blank : ∀ c ∈ shared, isBlank c = true := fun c hc => List.mem_takeWhile_imp (h.subset hc)
  rw [← e, List.drop_left, leadingBlanks_append blank]

/-- The indentations of the lines with content. -/
def indents (lines : List Text) : List Text := (lines.filter (!isSpaces ·)).map leadingBlanks

theorem sharedIndent_eq {lines more : List Text} {first : Text} (h : indents lines = first :: more) :
    sharedIndent lines = more.foldl commonStart first := by
  rw [indents] at h
  rw [sharedIndent, h]

section

variable {shared margin : Text} (blank : ∀ c ∈ margin, isBlank c = true)

/-- Whether a line has content is seen behind the shared indentation as well. -/
theorem isSpaces_drop {line : Text} (h : shared <+: leadingBlanks line) :
    isSpaces (line.drop shared.length) = isSpaces line := by
  obtain ⟨rest, e⟩ := h.trans (List.takeWhile_prefix _)
  have spaces : isSpaces shared = true :=
    isSpaces_iff.2 fun c hc => isSpace_of_isBlank (List.mem_takeWhile_imp (h.subset hc))
  rw [← e, List.drop_left, isSpaces_append, spaces, Bool.true_and]

include blank in
/-- **A moved line has content** exactly when the line had some. -/
theorem isSpaces_moveLine {line : Text} (h : isSpaces line = false → shared <+: leadingBlanks line) :
    isSpaces (moveLine shared margin line) = isSpaces line := by
  have spaces : isSpaces margin = true := isSpaces_iff.2 fun c hc => isSpace_of_isBlank (blank c hc)
  rw [moveLine]
  cases content : isSpaces line with
  | true => rfl
  | false =>
    rw [if_neg Bool.false_ne_true, isSpaces_append, spaces, Bool.true_and, isSpaces_drop (h content),
      content]

include blank in
/-- **The indentations of moved lines**: the margin, and what is left of their own. -/
theorem indents_moveLines (lines : List Text)
    (h : ∀ line ∈ lines, isSpaces line = false → shared <+: leadingBlanks line) :
    ∃ rests : List Text, indents lines = rests.map (shared ++ ·) ∧
      indents (moveLines shared margin lines) = rests.map (margin ++ ·) := by
  induction lines with
  | nil => exact ⟨[], rfl, rfl⟩
  | cons line lines ih =>
    rw [List.forall_mem_cons] at h
    obtain ⟨rests, old, new⟩ := ih h.2
    have spaces : isSpaces margin = true := isSpaces_iff.2 fun c hc => isSpace_of_isBlank (blank c hc)
    have same := isSpaces_moveLine blank h.1
    -- the line is moved, and only the last one keeps its margin when it has no content
    have moved : ∃ line', moveLines shared margin (line :: lines)
        = line' :: moveLines shared margin lines ∧ isSpaces line' = isSpaces line ∧
          (isSpaces line = false → line' = moveLine shared margin line) := by
      cases lines with
      | nil =>
        cases content : isSpaces line with
        | true => exact ⟨margin, by simp [moveLines, content], spaces, fun h => by cases h⟩
        | false =>
          exact ⟨moveLine shared margin line, by simp [moveLines, content], by rw [same, content],
            fun _ => rfl⟩
      | cons second more => exact ⟨moveLine shared margin line, rfl, same, fun _ => rfl⟩
    obtain ⟨line', shape, kind, eq⟩ := moved
    rw [indents] at old new ⊢
    rw [indents, shape, List.filter_cons, List.filter_cons, kind]
    cases content : isSpaces line with
    | true => exact ⟨rests, by simpa using old, by simpa using new⟩
    | false =>
      refine ⟨leadingBlanks (line.drop shared.length) :: rests, ?_, ?_⟩
      · simp only [Bool.not_false, if_true, List.map_cons]
        rw [old, ← leadingBlanks_drop (h.1 content)]
      · simp only [Bool.not_false, if_true, List.map_cons]
        rw [new, eq content, moveLine, content, if_neg Bool.false_ne_true, leadingBlanks_append blank]

include blank in
/-- **Moved lines with content share the margin**, and nothing more. -/
theorem sharedIndent_moveLines {lines : List Text} (some_content : ∃ line ∈ lines, isSpaces line = false) :
    sharedIndent (moveLines (sharedIndent lines) margin lines) = margin := by
  have prefixed : ∀ line ∈ lines, isSpaces line = false → sharedIndent lines <+: leadingBlanks line :=
    fun line mem content => sharedIndent_prefix mem content
  obtain ⟨rests, old, new⟩ := indents_moveLines blank lines prefixed
  cases rests with
  | nil =>
    obtain ⟨line, mem, content⟩ := some_content
    have found : leadingBlanks line ∈ indents lines :=
      List.mem_map_of_mem (List.mem_filter.2 ⟨mem, by rw [content]; rfl⟩)
    rw [old] at found
    cases found
  | cons first rests =>
    -- what is left of the old indentations has no common beginning
    have none : rests.foldl commonStart first = [] := by
      have whole := sharedIndent_eq old
      rw [foldl_commonStart_append] at whole
      exact List.self_eq_append_right.1 whole
    rw [sharedIndent_eq new, foldl_commonStart_append, none, List.append_nil]

include blank in
/-- **Moving moved lines to the margin they stand at changes nothing.** -/
theorem moveLines_moveLines {lines : List Text} {now : Text}
    (h : ∀ line ∈ lines, isSpaces line = false → shared <+: leadingBlanks line ∧ now = margin) :
    moveLines now margin (moveLines shared margin lines) = moveLines shared margin lines := by
  have spaces : isSpaces margin = true := isSpaces_iff.2 fun c hc => isSpace_of_isBlank (blank c hc)
  have own {line : Text} (h : isSpaces line = false → shared <+: leadingBlanks line ∧ now = margin) :
      moveLine now margin (moveLine shared margin line) = moveLine shared margin line := by
    have same := isSpaces_moveLine blank fun content => (h content).1
    rw [moveLine, same]
    cases content : isSpaces line with
    | true => rw [if_pos rfl, moveLine, if_pos content]
    | false =>
      -- there is a line with content, so the shared indentation is the margin
      obtain ⟨-, rfl⟩ := h content
      rw [if_neg Bool.false_ne_true, moveLine, if_neg (by rw [content]; exact Bool.false_ne_true),
        List.drop_left]
  induction lines with
  | nil => rfl
  | cons line lines ih =>
    rw [List.forall_mem_cons] at h
    have rest := ih h.2
    cases lines with
    | nil =>
      cases content : isSpaces line with
      | true => simp [moveLines, content, spaces]
      | false =>
        have same := isSpaces_moveLine blank fun content => (h.1 content).1
        simp only [moveLines, content, Bool.false_eq_true, if_false, same]
        rw [own h.1]
    | cons second more =>
      have next (indent line : Text) (ls : List Text) (some_line : ls ≠ []) (now : Text) :
          moveLines now indent (line :: ls) = moveLine now indent line :: moveLines now indent ls := by
        cases ls with
        | nil => exact absurd rfl some_line
        | cons _ _ => rfl
      have some_line : moveLines shared margin (second :: more) ≠ [] := by cases more <;> simp [moveLines]
      rw [next margin line (second :: more) (List.cons_ne_nil _ _) shared, next margin _ _ some_line,
        rest, own h.1]

end

/-- The lines of a body, where returns end them. -/
theorem linesOf_clean {body : Text} (h : ReturnsEndLines body) :
    ∀ line ∈ linesOf body, '\n' ∉ line ∧ '\r' ∉ line := by
  intro line mem
  rw [linesOf_eq] at mem
  obtain ⟨piece, found, rfl⟩ := List.mem_map.1 mem
  refine ⟨fun feed => ?_, not_mem_dropReturn h piece found⟩
  exact (of_mem_splitOn.2.2 piece found).1 ((trim_dropReturn piece).1.subset feed)

/-- Moved lines hold no line end, when the lines hold none. -/
theorem clean_moveLines {shared margin : Text} (blank : ∀ c ∈ margin, isBlank c = true)
    {lines : List Text} (h : ∀ line ∈ lines, isSpaces line = false → shared <+: leadingBlanks line)
    (clean : ∀ line ∈ lines, '\n' ∉ line ∧ '\r' ∉ line) :
    ∀ line ∈ moveLines shared margin lines, '\n' ∉ line ∧ '\r' ∉ line := by
  obtain ⟨pieces, whole, moved⟩ := exists_moveLines blank lines h
  rw [whole]
  intro line' mem
  obtain ⟨p, found, rfl⟩ := List.mem_map.1 mem
  obtain ⟨line, there, here⟩ := exists_of_mem_right moved found
  obtain ⟨no_feed, no_return⟩ := clean line there
  simp only [List.mem_append, not_or]
  refine ⟨⟨fun feed => ?_, fun feed => no_feed (here.inside.subset feed)⟩,
    fun ret => ?_, fun ret => no_return (here.inside.subset ret)⟩
  · exact absurd (here.blank _ feed) (by decide)
  · exact absurd (here.blank _ ret) (by decide)

/-- **Moving the lines of a comment once is enough.** -/
theorem movedBody_movedBody {m : Margin} (proper : m.Proper) (depth : Nat) {body : Text}
    (h : ReturnsEndLines body) :
    m.movedBody depth (m.movedBody depth body) = m.movedBody depth body := by
  have clean := linesOf_clean h
  have blank := proper.isBlank_indent depth
  cases lines : linesOf body with
  | nil =>
    rw [linesOf_eq, List.map_eq_nil_iff] at lines
    exact absurd lines of_mem_splitOn.1
  | cons first more =>
    rw [lines, List.forall_mem_cons] at clean
    have shared : ∀ line ∈ more, isSpaces line = false → sharedIndent more <+: leadingBlanks line :=
      fun line mem content => sharedIndent_prefix mem content
    have once : m.movedBody depth body = first
        ++ (moveLines (sharedIndent more) (m.indent depth) more).flatMap (m.terminator ++ ·) := by
      rw [Margin.movedBody, lines]
    -- the lines of the moved body are the moved lines, and share the margin they stand at
    have moved : linesOf (m.movedBody depth body)
        = first :: moveLines (sharedIndent more) (m.indent depth) more := by
      rw [once]
      refine linesOf_flow proper (List.forall_mem_cons.2 ⟨clean.1, ?_⟩)
      exact clean_moveLines blank shared clean.2
    have again : moveLines (sharedIndent (moveLines (sharedIndent more) (m.indent depth) more))
        (m.indent depth) (moveLines (sharedIndent more) (m.indent depth) more)
          = moveLines (sharedIndent more) (m.indent depth) more := by
      refine moveLines_moveLines blank fun line mem content => ⟨shared line mem content, ?_⟩
      exact sharedIndent_moveLines blank ⟨line, mem, content⟩
    rw [Margin.movedBody, moved]
    simp only
    rw [again, once]

/-! ## Trees -/

end Graft

/-- **Returns end the lines of a comment.** -/
def Markup.Node.CleanComment : Node → Prop
  | .comment raw => Text.ReturnsEndLines raw
  | _ => True

namespace Graft

open Markup Layout Text

/-- The body of a comment is behind one delimiter and before another, neither of which is a line
    feed. -/
theorem returnsEndLines_commentBody {raw : Text} (h : ReturnsEndLines raw) :
    ReturnsEndLines (commentBody raw) := by
  rw [commentBody]
  have opened : ReturnsEndLines ((dropStart? raw ['<', '!', '-', '-']).getD raw) := by
    rw [dropStart?]
    split
    · next begins =>
      obtain ⟨rest, rfl⟩ := List.isPrefixOf_iff_prefix.1 begins
      rw [Option.getD_some, List.drop_left]
      exact h.drop
    · exact h
  generalize (dropStart? raw ['<', '!', '-', '-']).getD raw = rest at opened
  rcases getD_dropEnd? rest ['-', '-', '>'] with cut | same
  · rw [← cut] at opened
    exact opened.front (by decide)
  · rw [same]
    exact opened

/-- Laying out does not look at what a node remembers of its source. -/
theorem laid_bare (m : Margin) (n : Node) : ∀ depth, m.laid depth n.bare = m.laid depth n := by
  induction n using Node.induct with
  | element tag children ih =>
    intro depth
    have all : (bareAll children).all Node.isLayout = children.all Node.isLayout := by
      rw [bareAll_eq_map, List.all_map]
      congr 1
      funext n
      exact isLayout_bare n
    have begins (n : Node) : n.bare.beginsLine = n.beginsLine := by cases n <;> rfl
    have inside (fresh : Bool) : m.laidAll depth fresh (bareAll children)
        = m.laidAll depth fresh children := by
      clear all
      induction children generalizing fresh with
      | nil => rfl
      | cons n ns ih' =>
        rw [List.forall_mem_cons] at ih
        rw [bareAll, Margin.laidAll, Margin.laidAll, isLayout_bare, begins, ih.1]
        simp only [ih' ih.2]
    rw [Node.bare, Margin.laid, Margin.laid, Tag.bare_bare, all, inside]
  | _ => exact fun _ => rfl

theorem beginsLine_laid (m : Margin) (depth : Nat) (n : Node) :
    (m.laid depth n).beginsLine = n.beginsLine := by cases n <;> rfl

/-- A content that is laid out holds more than layout, when the content does. -/
theorem all_isLayout_laidAll (m : Margin) (depth : Nat) (fresh : Bool) {ns : List Node}
    (h : ns.all Node.isLayout = false) : (m.laidAll depth fresh ns).all Node.isLayout = false := by
  induction ns generalizing fresh with
  | nil => cases h
  | cons n ns ih =>
    rw [Margin.laidAll]
    split
    · next layout =>
      rw [List.all_cons, layout, Bool.true_and] at h
      exact ih fresh h
    · next content =>
      rw [List.all_append, List.all_cons, isLayout_laid, Bool.eq_false_iff.2 content, Bool.false_and,
        Bool.and_false]

/-- **Breaks are left out and put back.** -/
theorem laidAll_laidAll {m : Margin} (proper : m.Proper) {depth : Nat} {ns : List Node}
    (h : ∀ n ∈ ns, m.laid (depth + 1) (m.laid (depth + 1) n) = m.laid (depth + 1) n) (fresh : Bool) :
    m.laidAll depth fresh (m.laidAll depth fresh ns) = m.laidAll depth fresh ns := by
  have breaks := isLayout_breakAt proper
  induction ns generalizing fresh with
  | nil =>
    cases fresh with
    | false => rfl
    | true =>
      have layout : m.laidAll depth true [] = [.text (m.breakAt depth)] := rfl
      rw [layout, Margin.laidAll, if_pos (breaks depth), layout]
  | cons n ns ih =>
    rw [List.forall_mem_cons] at h
    have rest := ih h.2
    rw [Margin.laidAll]
    split
    · exact rest fresh
    · next content =>
      have own : ¬ (m.laid (depth + 1) n).isLayout = true := by rwa [isLayout_laid]
      have again : m.laidAll depth fresh (m.laid (depth + 1) n :: m.laidAll depth n.beginsLine ns)
          = (if fresh && n.beginsLine then [.text (m.breakAt (depth + 1))] else [])
            ++ m.laid (depth + 1) n :: m.laidAll depth n.beginsLine ns := by
        rw [Margin.laidAll, if_neg own, beginsLine_laid, h.1, rest]
      split
      · next both =>
        rw [if_pos both] at again
        rw [List.singleton_append, Margin.laidAll, if_pos (breaks _), again, List.singleton_append]
      · next other =>
        rw [if_neg other] at again
        exact again

/-- **A laid tree is laid out as itself**, when returns end the lines of its comments. -/
theorem laid_laid {m : Margin} (proper : m.Proper) {n : Node} (h : n.Every Node.CleanComment) :
    ∀ depth, m.laid depth (m.laid depth n) = m.laid depth n := by
  induction n using Node.induct with
  | element tag children ih =>
    intro depth
    obtain ⟨-, below⟩ := every_element.1 h
    rw [Margin.laid, Margin.laid, Tag.bare_bare]
    cases layout : children.all Node.isLayout with
    | true => rfl
    | false =>
      -- a content that was not left out is not left out the second time
      have inside := all_isLayout_laidAll m depth true layout
      simp only [Bool.false_eq_true, if_false, inside]
      rw [laidAll_laidAll proper (fun n hn => ih n hn (below n hn) _) true]
  | text raw =>
    intro depth
    rw [Margin.laid, Margin.laid, Text.trim_trim]
  | comment raw =>
    intro depth
    rw [Margin.laid, flow_commentPiece, Margin.laid, flow_commentPiece, commentBody_written,
      movedBody_movedBody proper depth (returnsEndLines_commentBody h.own)]
  | other markup => exact fun _ => rfl

/-- **A laid element is laid out as itself**, also when it was read back in between. -/
theorem laidElement_laidElement {m : Margin} (proper : m.Proper) {e e' : Element}
    (h : e.toNode.Every Node.CleanComment) {depth : Nat}
    (same : e'.bare = (m.laidElement depth e).bare) :
    m.laidElement depth e' = m.laidElement depth e := by
  refine toNode_inj ?_
  rw [← laid_toNode, ← laid_toNode, ← laid_bare, Element.bare_toNode, same, ← Element.bare_toNode, laid_bare,
    ← laid_toNode]
  exact laid_laid proper h depth

end Graft

end XmlGraft
