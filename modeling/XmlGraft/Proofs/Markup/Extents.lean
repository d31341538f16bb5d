/-
  Extents — where the elements of a document stand in its source.

  The ranges of tags are byte offsets that are counted, token by token, from the byte-order mark on.
  Whatever is copied from a source later trusts them: they have to fall on characters, and the bytes
  between them have to be the tag.

  1. **Positions** (`Position.past_first`): counting characters one by one gives the number of line
     feeds and the length of the last line.  The reader counts as it goes, so the induction adds
     characters at the end of the text.

  2. **Events** (`Event.RecordedIn`): each event is what its source says at its range.  Placing one
     token keeps this for the tokens behind it, so all events of a source have it
     (`recordedIn_events`), also when the reading ends in a fault.

  3. **Tags** (`Node.RecordedIn`): what events make up is recorded as they are
     (`recordedIn_of_content`), for a tag with nothing inside and for two tags around a content.
     That a start tag does not end in a slash needs its reading (`last_of_lexeme_opening`).

  4. **Order** (`Node.InOrder`): the ranges of the children stand between the tags, one behind the
     other (`ReadAt.every_inOrder`).

  5. With at most one mark, all of a document is recorded right (`every_recordedIn`).  With two
     marks the ranges begin too early (`not_recordedIn_twoMarks`), since the second one is skipped
     and not counted.
-/
import XmlGraft.Proofs.Markup.Documents

namespace XmlGraft

/-! ## Positions -/

namespace Position

/-- **The position behind a text**: its line feeds, and the characters behind the last of them. -/
def behind (t : Text) : Position :=
  ⟨t.count '\n' + 1, (t.reverse.takeWhile (· != '\n')).length + 1⟩

/-- One more character at the end is one more step of the position. -/
theorem behind_append (t : Text) (c : Char) : behind (t ++ [c]) = (behind t).step c := by
  have last : (t ++ [c]).reverse = c :: t.reverse := by simp
  rw [behind, step, last, List.count_append]
  by_cases feed : c = '\n'
  · subst feed
    simp [behind]
  · -- another character than a feed makes the last line longer and adds no line
    have other : (c != '\n') = true := bne_iff_ne.2 feed
    have none : [c].count '\n' = 0 := List.count_eq_zero.2 fun mem => by
      exact feed (List.mem_singleton.1 mem).symm
    rw [if_neg feed, List.takeWhile_cons, if_pos other, none]
    rfl

/-- **Counting characters one by one** gives the position behind a text.  From the front on, as
    the reader goes, so the induction is on the end of the text. -/
theorem past_first (t : Text) : first.past t = behind t := by
  induction t using List.reverseRecOn with
  | nil => rfl
  | append_singleton t c ih =>
    have last : first.past (t ++ [c]) = (first.past t).step c := by
      rw [past, List.foldl_append]
      rfl
    rw [last, ih, behind_append]

/-- **The position of a byte**: what stands before it, without a byte-order mark. -/
def ofByte (text : Text) (n : Nat) : Position := behind (Markup.withoutMark (text.takeBytes n))

end Position

namespace Markup

/-! ## Events -/

/-- **The text says the excerpt at its range**; in particular, both ends fall on characters. -/
def Excerpt.StandsIn (text : Text) (x : Excerpt) : Prop :=
  text.slice? x.range.start x.range.stop = some x.text

/-- **An event as it stands in a text**: at its range stands the token, and its position is that of
    its first byte. -/
structure Event.RecordedIn (text : Text) (e : Event) : Prop where
  stands : e.excerpt.StandsIn text
  spelled : e.excerpt.text = e.token.written
  position : e.position = some (.ofByte text e.start)

/-- Tokens that are placed behind what stands before them are recorded.  By induction on the
    tokens, with the text before them growing by each; the mark counts for the bytes and not for
    the position. -/
theorem recordedIn_placed {mark body : Text} (hm : IsMark mark) (hb : Unmarked body)
    (tokens : List Token) :
    ∀ before after, body = before ++ tokens.flatMap Token.written ++ after →
      ∀ e ∈ placed (mark ++ before).size (Position.first.past before) tokens,
        e.RecordedIn (mark ++ body) := by
  induction tokens with
  | nil => exact fun before after _ => List.forall_mem_nil _
  | cons token tokens ih =>
    intro before after whole
    rw [List.flatMap_cons] at whole
    -- the token and what is around it
    have around : mark ++ body
        = (mark ++ before) ++ token.written ++ (tokens.flatMap Token.written ++ after) := by
      rw [whole]
      simp only [List.append_assoc]
    have unmarked : Unmarked before := by
      intro first
      refine hb ?_
      rw [whole, List.append_assoc, List.head?_append, first]
      rfl
    have first : (⟨token, ⟨⟨(mark ++ before).size, (mark ++ before).size + token.written.size⟩,
        token.written⟩, some (Position.first.past before)⟩ : Event).RecordedIn (mark ++ body) := by
      refine ⟨?_, rfl, ?_⟩
      · rw [Excerpt.StandsIn, around]
        exact Text.slice?_middle _ _ _
      · have past : (mark ++ body).takeBytes (mark ++ before).size = mark ++ before := by
          rw [around, List.append_assoc]
          exact Text.takeBytes_size _ _
        show some _ = some (Position.ofByte _ (mark ++ before).size)
        rw [Position.ofByte, past, (withoutMark_append hm unmarked).1, Position.past_first]
    have size : (mark ++ before).size + token.written.size
        = (mark ++ (before ++ token.written)).size := by
      simp only [Text.size_append]
      omega
    have position : (Position.first.past before).past token.written
        = Position.first.past (before ++ token.written) := by
      rw [Position.past, Position.past, Position.past, List.foldl_append]
    have rest := ih (before ++ token.written) after (by
      rw [whole]
      simp only [List.append_assoc])
    rw [placed, size, position]
    exact List.forall_mem_cons.2 ⟨by rw [← size]; exact first, rest⟩

/-- **All events of a source are recorded**, whether or not the reading ends in a fault: what
    could not be read stands behind them. -/
theorem recordedIn_events {text : Text} (one : AtMostOneMark text) :
    ∀ e ∈ (Reading.ofSource (Source.ofText text)).events, e.RecordedIn text := by
  obtain ⟨mark, body, rfl, hm, hb⟩ := one.split
  obtain ⟨lexed, rest, whole, -⟩ := lexed_scan body
  have placed := recordedIn_placed hm hb (scan body).tokens [] rest whole
  rw [List.append_nil] at placed
  rw [(ofSource_append hm hb).1]
  exact placed

/-! ## Tags -/

/-- **Tags as they stand in a text**, for an element of a name. -/
structure Origin.RecordedIn (text name : Text) (o : Origin) : Prop where
  position : o.position = some (.ofByte text o.opening.range.start)
  opening : o.opening.StandsIn text
  begins : '<' :: name <+: o.opening.text
  ends : ['>'] <:+ o.opening.text
  /-- An element is one tag exactly when the tag ends so. -/
  single : o.closing = none ↔ ['/', '>'] <:+ o.opening.text
  closing : ∀ x, o.closing = some x →
    x.StandsIn text ∧ ['<', '/'] ++ name <+: x.text ∧ ['>'] <:+ x.text

/-- **The element remembers where it stands.** -/
def Node.RecordedIn (text : Text) : Node → Prop
  | .element tag _ => ∃ o, tag.origin = some o ∧ o.RecordedIn text tag.name
  | _ => True

/-- The content of a start tag does not end in a slash, or it would be read as a single tag. -/
theorem last_of_lexeme_opening {content : Text} (h : Lexeme (.opening content)) :
    content.getLast? ≠ some '/' := by
  have read := h []
  generalize (Token.opening content).written ++ [] = t at read
  unfold next at read
  -- no other markup is read as a start tag
  split at read
  · unfold nextBang at read
    repeat' split at read
    all_goals simp [notClosed] at read
    repeat' split at read
    all_goals simp at read
  · unfold nextInstruction at read
    repeat' split at read
    all_goals simp [notClosed] at read
  · unfold nextClosing at read
    split at read <;> simp [notClosed] at read
  · -- an opening tag is what is left when the content ends in no slash
    unfold nextOpening at read
    split at read
    · next i _ =>
      obtain ⟨token, -⟩ := Prod.mk.inj (Except.ok.inj read)
      split at token
      · cases token
      · next slash =>
        cases token
        exact slash
    · cases read
  · simp at read

/-- The name of a tag is what its content begins with. -/
theorem prefix_tagName (content : Text) : tagName content <+: content :=
  List.takeWhile_prefix _

/-- The name of an end tag is what its content begins with: white space is cut off behind it, if
    at all. -/
theorem prefix_closingName (content : Text) : Builder.closingName content <+: content := by
  rw [Builder.closingName]
  split
  · exact List.prefix_rfl
  · have cut : content.reverse.dropWhile isTagSpace <:+ content.reverse := List.dropWhile_suffix _
    rw [← List.reverse_prefix, List.reverse_reverse] at cut
    exact cut

/-- What stands between brackets begins with a name when its content does. -/
theorem prefix_brackets (front : Text) {name content : Text} (h : name <+: content) (back : Text) :
    front ++ name <+: front ++ content ++ back := by
  obtain ⟨rest, rfl⟩ := h
  exact ⟨rest ++ back, by simp only [List.append_assoc]⟩

/-- A start tag does not end as a single tag does. -/
theorem not_suffix_of_lexeme_opening {content : Text} (h : Lexeme (.opening content)) :
    ¬ ['/', '>'] <:+ (Token.opening content).written := by
  rintro ⟨front, e⟩
  have split : front ++ ['/'] ++ ['>'] = '<' :: content ++ ['>'] := by
    rw [List.append_assoc]
    exact e
  have inner := List.append_cancel_right split
  cases front with
  | nil =>
    obtain ⟨mark, -⟩ := List.cons.inj inner
    exact absurd mark (by decide)
  | cons c front =>
    obtain ⟨-, rfl⟩ := List.cons.inj inner
    exact absurd List.getLast?_concat (last_of_lexeme_opening h)

/-- An element that is one tag is recorded as its event is. -/
theorem recordedIn_of_empty {text content : Text} {e : Event} {tag : Tag}
    (own : e.RecordedIn text) (token : e.token = .empty content)
    (tagged : Builder.tagOf e content = .ok tag) : (Node.element tag []).RecordedIn text := by
  have spelled := own.spelled
  rw [token] at spelled
  rw [Node.RecordedIn, (of_tagOf tagged).2]
  refine ⟨_, rfl, own.position, own.stands, ?_, ?_, ?_, fun x nothing => by cases nothing⟩
  · show '<' :: tagName content <+: e.excerpt.text
    rw [spelled]
    exact prefix_brackets ['<'] (prefix_tagName content) _
  · show ['>'] <:+ e.excerpt.text
    rw [spelled]
    exact ⟨'<' :: content ++ ['/'], by simp [Token.written]⟩
  · have slash : ['/', '>'] <:+ e.excerpt.text := by
      rw [spelled]
      exact ⟨'<' :: content, by simp [Token.written]⟩
    exact ⟨fun _ => slash, fun _ => rfl⟩

/-- An element between two tags is recorded as their events are: each stands at its range, and
    both have the name of the element. -/
theorem recordedIn_of_opening {text content end_ : Text} {e last : Event} {tag : Tag}
    (own : e.RecordedIn text) (own' : last.RecordedIn text) (formed : e.token.WellFormed)
    (token : e.token = .opening content) (tagged : Builder.tagOf e content = .ok tag)
    (closes : last.token = .closing end_) (same : tag.name = Builder.closingName end_)
    (children : List Node) : (Node.element (tag.closedBy last.excerpt) children).RecordedIn text := by
  have spelled := own.spelled
  have spelled' := own'.spelled
  rw [token] at spelled formed
  rw [closes] at spelled'
  have name : tag.name = tagName content := by rw [(of_tagOf tagged).2]
  have origin : (tag.closedBy last.excerpt).origin
      = some ⟨e.position, e.excerpt, some last.excerpt⟩ := by
    rw [(of_tagOf tagged).2]
    rfl
  refine ⟨_, origin, own.position, own.stands, ?_, ?_, ?_, ?_⟩
  · show '<' :: tag.name <+: e.excerpt.text
    rw [spelled, name]
    exact prefix_brackets ['<'] (prefix_tagName content) _
  · show ['>'] <:+ e.excerpt.text
    rw [spelled]
    exact ⟨'<' :: content, by simp [Token.written]⟩
  · have no_slash : ¬ ['/', '>'] <:+ e.excerpt.text := by
      rw [spelled]
      exact not_suffix_of_lexeme_opening formed
    refine ⟨fun nothing => ?_, fun slash => absurd slash no_slash⟩
    cases nothing
  · intro x here
    obtain rfl := Option.some.inj here
    show last.excerpt.StandsIn text ∧ ['<', '/'] ++ tag.name <+: last.excerpt.text
      ∧ ['>'] <:+ last.excerpt.text
    rw [spelled', same]
    refine ⟨own'.stands, prefix_brackets ['<', '/'] (prefix_closingName end_) _, ?_⟩
    exact ⟨['<', '/'] ++ end_, rfl⟩

/-- **What events make up is recorded as the events are.**  By induction on the grammar. -/
theorem recordedIn_of_content {text : Text} {es : List Event} {ns : List Node} (h : Content es ns) :
    (∀ e ∈ es, e.RecordedIn text ∧ e.token.WellFormed) →
      ∀ n ∈ ns, n.Every (Node.RecordedIn text) := by
  induction h with
  | nil => exact fun _ => List.forall_mem_nil _
  | text _ _ _ ih | comment _ _ ih | other _ _ ih =>
    intro each
    rw [List.forall_mem_cons] at each
    exact List.forall_mem_cons.2 ⟨.leaf rfl trivial, ih each.2⟩
  | single token tagged _ ih =>
    intro each
    rw [List.forall_mem_cons] at each
    obtain ⟨⟨own, -⟩, rest⟩ := each
    have recorded := recordedIn_of_empty own token tagged
    exact List.forall_mem_cons.2 ⟨.element recorded (List.forall_mem_nil _), ih rest⟩
  | pair token tagged _ closes same _ ihi ih =>
    intro each
    rw [List.forall_mem_cons, List.forall_mem_append, List.forall_mem_cons] at each
    obtain ⟨⟨own, formed⟩, each_inner, ⟨own', -⟩, rest⟩ := each
    have recorded := recordedIn_of_opening own own' formed token tagged closes same
    exact List.forall_mem_cons.2 ⟨.element (recorded _) (ihi each_inner), ih rest⟩

/-! ## Order -/

/-- **Ranges one behind the other**, none of which ends before it begins. -/
structure Ascending (ranges : List ByteRange) : Prop where
  apart : ranges.Pairwise fun a b => a.stop ≤ b.start
  proper : ∀ r ∈ ranges, r.start ≤ r.stop

/-- **The children of an element stand between its tags**, in order and apart from each other. -/
def Node.InOrder : Node → Prop
  | .element tag children => ∃ o, tag.origin = some o ∧
      Ascending (o.opening.range :: ((elements children).map Element.range
        ++ (o.closing.map (·.range)).toList))
  | _ => True

/-- A range in front of ranges that begin behind it. -/
theorem Ascending.cons {r : ByteRange} {ranges : List ByteRange} (h : Ascending ranges)
    (proper : r.start ≤ r.stop) (before : ∀ r' ∈ ranges, r.stop ≤ r'.start) :
    Ascending (r :: ranges) :=
  ⟨List.pairwise_cons.2 ⟨before, h.apart⟩, List.forall_mem_cons.2 ⟨proper, h.proper⟩⟩

/-- Ranges one behind the other, in two parts. -/
theorem Ascending.append {front back : List ByteRange} (hf : Ascending front) (hb : Ascending back)
    (before : ∀ a ∈ front, ∀ b ∈ back, a.stop ≤ b.start) : Ascending (front ++ back) :=
  ⟨List.pairwise_append.2 ⟨hf.apart, hb.apart, before⟩, List.forall_mem_append.2 ⟨hf.proper, hb.proper⟩⟩

/-- **The elements of a list that was read** stand one behind the other in its bytes, and none of
    them reaches over either end. -/
theorem ReadAt.ascending {o : Nat} {ns : List Node} (h : ReadAt o ns) :
    Ascending ((elements ns).map Element.range) ∧
      ∀ r ∈ (elements ns).map Element.range, o ≤ r.start ∧ r.stop ≤ o + (writtenAll ns).size := by
  induction ns generalizing o with
  | nil => exact ⟨⟨.nil, List.forall_mem_nil _⟩, List.forall_mem_nil _⟩
  | cons n ns ih =>
    rw [writtenAll_cons, Text.size_append]
    -- a node that is no element moves the others on and adds no range
    cases hn : n.element? with
    | none =>
      have rest : ReadAt (o + n.written.size) ns := by
        cases h with
        | leaf _ rest => exact rest
        | single _ _ => cases hn
        | pair _ _ _ _ => cases hn
      obtain ⟨ascending, bounds⟩ := ih rest
      rw [elements_cons_of_none hn]
      refine ⟨ascending, fun r mem => ?_⟩
      have := bounds r mem
      omega
    | some x =>
      obtain rfl := element?_eq_some_iff.1 hn
      obtain ⟨-, range, rest, -⟩ := h.element
      obtain ⟨ascending, bounds⟩ := ih rest
      have written : x.toNode.written = x.written := rfl
      rw [elements_toNode, List.map_cons, range, written]
      refine ⟨ascending.cons (Nat.le_add_right _ _) fun r mem => (bounds r mem).1, ?_⟩
      refine List.forall_mem_cons.2 ⟨⟨Nat.le_refl _, ?_⟩, fun r mem => ?_⟩
      · show o + x.written.size ≤ _
        omega
      · have := bounds r mem
        omega

/-- **In a tree that was read**, every element has its children in order between its tags.  By
    induction on the reading; the children lie within the bytes between the tags, and so before
    the end tag. -/
theorem ReadAt.every_inOrder {o : Nat} {ns : List Node} (h : ReadAt o ns) :
    ∀ n ∈ ns, n.Every Node.InOrder := by
  induction h with
  | nil => exact List.forall_mem_nil _
  | @leaf o n ns none _ ih =>
    have own : n.InOrder := by
      cases n with
      | element tag children => cases none
      | _ => trivial
    exact List.forall_mem_cons.2 ⟨.leaf none own, ih⟩
  | @single o name attributes position opening ns range _ ih =>
    have own : Ascending [opening.range] := by
      refine ⟨List.pairwise_singleton _ _, List.forall_mem_singleton.2 ?_⟩
      rw [range]
      exact Nat.le_add_right _ _
    exact List.forall_mem_cons.2 ⟨.element ⟨_, rfl, own⟩ (List.forall_mem_nil _), ih⟩
  | @pair o name attributes position opening closing children ns range inner range' _ ihi ih =>
    obtain ⟨ascending, bounds⟩ := inner.ascending
    have last : Ascending [closing.range] := by
      refine ⟨List.pairwise_singleton _ _, List.forall_mem_singleton.2 ?_⟩
      rw [range']
      simp only [Text.size_append]
      omega
    have behind : ∀ r ∈ (elements children).map Element.range, r.stop ≤ closing.range.start := by
      intro r mem
      have := (bounds r mem).2
      rw [range']
      simp only [Text.size_append]
      omega
    have between : Ascending ((elements children).map Element.range ++ [closing.range]) := by
      refine ascending.append last fun r mem r' mem' => ?_
      rw [List.mem_singleton.1 mem']
      exact behind r mem
    have own : Ascending (opening.range :: ((elements children).map Element.range
        ++ [closing.range])) := by
      refine between.cons ?_ fun r mem => ?_
      · rw [range]
        exact Nat.le_add_right _ _
      · rw [range]
        rcases List.mem_append.1 mem with mem | mem
        · exact (bounds r mem).1
        · rw [List.mem_singleton.1 mem, range']
          simp only [Text.size_append]
          omega
    exact List.forall_mem_cons.2 ⟨.element ⟨_, rfl, own⟩ ihi, ih⟩

/-! ## Documents -/

/-- **The events that the root element is made of**: each is recorded and well formed. -/
theorem Document.exists_recorded_content {text : Text} {d : Document} (one : AtMostOneMark text)
    (parsed : parse text = .ok d) :
    ∃ es, Content es [d.root.toNode] ∧ ∀ e ∈ es, e.RecordedIn text ∧ e.token.WellFormed := by
  obtain ⟨f, tokens, -, -, -, lexed, content, text_eq⟩ :=
    Document.exists_content_of_parse one parsed
  rw [f.written_append] at text_eq
  -- the events of the root element are a part of those of the source
  have body : (f.before ++ (tokens ++ f.after)).flatMap Token.written
      = f.before.flatMap Token.written ++ tokens.flatMap Token.written ++ f.epilog := by
    simp only [List.flatMap_append, Frame.epilog, List.append_assoc]
  have recorded := recordedIn_placed f.isMark (f.unmarked_append content) tokens _ _ body
  have formed : ∀ e ∈ placed f.prolog.size f.position tokens, e.token.WellFormed := by
    intro e mem
    refine lexed.wellFormed e.token ?_
    rw [← map_token_placed f.prolog.size f.position tokens]
    exact List.mem_map_of_mem mem
  refine ⟨_, content, fun e mem => ⟨?_, formed e mem⟩⟩
  rw [text_eq]
  exact recorded e mem

/-- **Every element of a document that was read** remembers where it stands. -/
theorem Document.recordedIn_of_parse {text : Text} {d : Document} (one : AtMostOneMark text)
    (parsed : parse text = .ok d) : d.root.toNode.Every (Node.RecordedIn text) := by
  obtain ⟨es, content, each⟩ := Document.exists_recorded_content one parsed
  exact recordedIn_of_content content each _ (List.mem_singleton_self _)

/-- **Extents**: with at most one byte-order mark, every event is cut out of the text at characters,
    and in a document that is read every element stands where it remembers to stand, with its
    children in order between its tags. -/
theorem every_recordedIn {text : Text} (one : AtMostOneMark text) :
    (∀ e ∈ (Reading.ofSource (Source.ofText text)).events, e.excerpt.StandsIn text) ∧
      ∀ d, Document.parse text = .ok d →
        text.slice? 0 d.root.range.start = some d.prolog ∧
        text.slice? d.root.range.stop text.size = some d.epilog ∧
        d.root.toNode.Every (Node.RecordedIn text) ∧ d.root.toNode.Every Node.InOrder := by
  refine ⟨fun e mem => (recordedIn_events one e mem).stands, fun d parsed => ?_⟩
  have read := Document.read_of_parse one parsed
  have range := read.tree.element.2.1
  have whole : text = d.prolog ++ d.root.written ++ d.epilog := read.written.symm
  refine ⟨?_, ?_, ?_, read.tree.every_inOrder _ (List.mem_singleton_self _)⟩
  · -- the prolog is the text before the range of the root element, and the epilog is the text
    -- behind it
    have first := Text.slice?_middle [] d.prolog (d.root.written ++ d.epilog)
    rw [range, whole, List.append_assoc]
    simpa using first
  · have last := Text.slice?_middle (d.prolog ++ d.root.written) d.epilog []
    rw [range, whole]
    simpa [Nat.add_assoc] using last
  · exact Document.recordedIn_of_parse one parsed

/-! ### A quoted bracket -/

namespace Quoted

/-- A mark, a bracket between quotes, and a character of two bytes. -/
def text : Text := "\uFEFF<a b='>'>é<c/></a>".toList

/-- The child. -/
def child : Element :=
  ⟨⟨['c'], [], some ⟨some ⟨1, 11⟩, ⟨⟨14, 18⟩, "<c/>".toList⟩, none⟩, false, false⟩, []⟩

/-- The root element. -/
def root : Element :=
  ⟨⟨['a'], [⟨['b'], ['>']⟩], some ⟨some ⟨1, 1⟩, ⟨⟨3, 12⟩, "<a b='>'>".toList⟩,
    some ⟨⟨18, 22⟩, "</a>".toList⟩⟩, false, false⟩, [.text ['é'], child.toNode]⟩

/-- What the text is read as. -/
def document : Document := ⟨Source.ofText text, [byteOrderMark], root, []⟩

theorem parse_text : Document.parse text = .ok document := by with_unfolding_all rfl

end Quoted

/-- The bracket between quotes ends no tag, and the mark counts for bytes only. -/
theorem every_recordedIn_quoted :
    AtMostOneMark Quoted.text ∧ Document.parse Quoted.text = .ok Quoted.document ∧
    Quoted.text.slice? 0 3 = some [byteOrderMark] ∧
    Quoted.root.toNode.Every (Node.RecordedIn Quoted.text) ∧
    Quoted.root.toNode.Every Node.InOrder := by
  have one : AtMostOneMark Quoted.text := by decide
  obtain ⟨-, read⟩ := every_recordedIn one
  obtain ⟨prolog, -, recorded, inOrder⟩ := read _ Quoted.parse_text
  exact ⟨one, Quoted.parse_text, prolog, recorded, inOrder⟩

/-! ### Two marks -/

namespace TwoMarks

/-- Two byte-order marks before an empty element. -/
def text : Text := "\uFEFF\uFEFF<a/>".toList

/-- The element that is read: what it takes for its tag begins with the second mark. -/
def root : Element :=
  ⟨⟨['a'], [], some ⟨some ⟨1, 1⟩, ⟨⟨3, 7⟩, "\uFEFF<".toList⟩, none⟩, false, false⟩, []⟩

end TwoMarks

/-- **With two marks**, the text is read, and the tag of its element does not stand where the element
    remembers: the bytes begin with no `<` and end with no `>`. -/
theorem not_recordedIn_twoMarks :
    Document.parse TwoMarks.text
      = .ok ⟨Source.ofText TwoMarks.text, [byteOrderMark], TwoMarks.root, "a/>".toList⟩ ∧
    ¬ TwoMarks.root.toNode.Every (Node.RecordedIn TwoMarks.text) := by
  refine ⟨by with_unfolding_all rfl, fun recorded => ?_⟩
  obtain ⟨o, origin, own⟩ := recorded.own
  obtain rfl := Option.some.inj origin
  obtain ⟨rest, tag⟩ := own.begins
  obtain ⟨first, -⟩ := List.cons.inj tag
  exact absurd first (by decide)

end Markup

end XmlGraft
