/-
  Documents — what parsing a text says about it, and what parses to what.

  This module joins the tokens, the builder and the tree: from a text to the document that is read
  of it, and from a tree back to a text that is read as the tree.

  1. **Byte-order marks** (`AtMostOneMark`): a mark is skipped before the tokens are read, and its
     bytes are counted.  A second one would be skipped without being counted, so that the places
     would be wrong; all that follows is about texts with at most one.

  2. **Frames** (`Frame`): what can stand before and behind a root element, the byte-order mark
     included.  A frame keeps tokens, so that what is put into it can be scanned with it, and it
     brings the conditions on them along.

  3. **Parsing** (`exists_content_of_parse`): a document that was read is a frame around the content
     of one element, and it is written as its source (`Document.read_of_parse`).  Of a builder that
     has finished, `Builder.Fits` says that the events were exactly that.

  4. **Spelling** (`Spelled`, `exists_spelled`): nodes and the tokens that they are written as, and
     read from wherever they stand.  The conditions on first and last tokens are what lets two such
     lists be put one behind the other.

  5. **Round trip** (`parse_written`): a legible tree in a frame is read back, but for what it
     remembers of its source; what is read is its twin (`parse_twins`).
-/
import XmlGraft.Proofs.Markup.Reading
import XmlGraft.Proofs.Markup.Twins

namespace XmlGraft.Markup

/-! ## Byte-order marks -/

/-- **At most one byte-order mark** stands at the front. -/
def AtMostOneMark (t : Text) : Prop := ¬ [byteOrderMark, byteOrderMark] <+: t

instance (t : Text) : Decidable (AtMostOneMark t) := by
  unfold AtMostOneMark
  infer_instance

/-- A mark, or none. -/
def IsMark (mark : Text) : Prop := mark = [] ∨ mark = [byteOrderMark]

/-- The text does not begin with a mark. -/
def Unmarked (t : Text) : Prop := t.head? ≠ some byteOrderMark

/-- A text is a mark, or none, and what stands behind it. -/
theorem AtMostOneMark.split {t : Text} (h : AtMostOneMark t) :
    ∃ mark body, t = mark ++ body ∧ IsMark mark ∧ Unmarked body := by
  cases t with
  | nil => exact ⟨[], [], rfl, .inl rfl, by simp [Unmarked]⟩
  | cons c t =>
    by_cases hc : c = byteOrderMark
    · subst hc
      refine ⟨[byteOrderMark], t, rfl, .inr rfl, fun second => ?_⟩
      obtain ⟨rest, rfl⟩ := List.head?_eq_some_iff.1 second
      exact h ⟨rest, rfl⟩
    · exact ⟨[], c :: t, rfl, .inl rfl, fun first => hc (Option.some.inj first)⟩

/-- A mark, or none, in front of a text without one is at most one. -/
theorem atMostOneMark_append {mark body : Text} (hm : IsMark mark) (hb : Unmarked body) :
    AtMostOneMark (mark ++ body) := by
  rintro ⟨rest, e⟩
  rcases hm with rfl | rfl
  · rw [List.nil_append] at e
    rw [← e] at hb
    exact hb rfl
  · obtain ⟨-, e⟩ := List.cons.inj e
    exact hb (congrArg List.head? e).symm

theorem withoutMark_of_unmarked {t : Text} (h : Unmarked t) : withoutMark t = t := by
  cases t with
  | nil => rfl
  | cons c t =>
    rw [withoutMark, if_neg]
    rintro rfl
    exact h rfl

/-- The mark in front is skipped, and its bytes are counted. -/
theorem withoutMark_append {mark body : Text} (hm : IsMark mark) (hb : Unmarked body) :
    withoutMark (mark ++ body) = body ∧
      (Source.ofText (mark ++ body)).markSize = mark.size := by
  rcases hm with rfl | rfl
  · exact ⟨withoutMark_of_unmarked hb, by rw [Source.markSize]; exact if_neg hb⟩
  · exact ⟨by rw [List.singleton_append, withoutMark, if_pos rfl], rfl⟩

/-- **The events of a source** are its tokens, placed behind the mark; nothing is misread where no
    token is. -/
theorem ofSource_append {mark body : Text} (hm : IsMark mark) (hb : Unmarked body) :
    (Reading.ofSource (Source.ofText (mark ++ body))).events
        = placed mark.size .first (scan body).tokens ∧
      ((Reading.ofSource (Source.ofText (mark ++ body))).misread = none ↔
        (scan body).misread = none) := by
  obtain ⟨cut, size⟩ := withoutMark_append hm hb
  have text : (Source.ofText (mark ++ body)).text = mark ++ body := rfl
  obtain ⟨-, rest, whole, -⟩ := lexed_scan body
  rw [Reading.ofSource]
  simp only [text, cut, size, withoutMark_of_unmarked hb, Option.map_eq_none_iff, and_true]
  -- the tokens of the scan are what the text begins with
  conv => lhs; arg 2; rw [whole]
  exact place_flatMap _ _ _ _

/-! ## Frames -/

/-- What can stand outside the root element, as a token. -/
def Token.Around (begun : Bool) : Token → Prop
  | .characters raw => (∃ value, resolve raw = .ok value) ∧ Text.isSpaces raw = true
  | .comment _ | .cdata _ | .instruction _ => True
  | .declaration _ | .doctype _ => begun = false
  | .opening _ | .empty _ | .closing _ => False

/-- Placed tokens stand outside the root element when the tokens can. -/
theorem around_placed {begun : Bool} {o : Nat} {p : Position} {tokens : List Token} :
    (∀ e ∈ placed o p tokens, e.Around begun) ↔ ∀ t ∈ tokens, t.Around begun := by
  induction tokens generalizing o p with
  | nil => simp [placed]
  | cons token tokens ih =>
    rw [placed, List.forall_mem_cons, List.forall_mem_cons, ih]
    cases token <;> exact Iff.rfl

/-- **A frame**: what can stand before and behind a root element. -/
structure Frame where
  mark : Text
  before : List Token
  after : List Token
  isMark : IsMark mark
  lexed_before : Lexed before
  lexed_after : Lexed after
  around_before : ∀ t ∈ before, t.Around false
  around_after : ∀ t ∈ after, t.Around true
  unmarked : Unmarked (before.flatMap Token.written)

namespace Frame

/-- What stands before the root element. -/
def prolog (f : Frame) : Text := f.mark ++ f.before.flatMap Token.written

/-- What stands behind the root element. -/
def epilog (f : Frame) : Text := f.after.flatMap Token.written

/-- The position behind the prolog. -/
def position (f : Frame) : Position := Position.first.past (f.before.flatMap Token.written)

/-- A frame with tokens in it, as it is written. -/
theorem written_append (f : Frame) (tokens : List Token) :
    f.prolog ++ tokens.flatMap Token.written ++ f.epilog
      = f.mark ++ (f.before ++ (tokens ++ f.after)).flatMap Token.written := by
  simp only [prolog, epilog, List.flatMap_append, List.append_assoc]

end Frame

/-- The first and the last event of an element are tags. -/
theorem content_element_ends {es : List Event} {root : Element} (h : Content es [root.toNode]) :
    (∀ t ∈ (es.map (·.token)).head?, t.isCharacters = false ∧ ∃ s, t.written = '<' :: s) ∧
      (∀ t ∈ (es.map (·.token)).getLast?, t.isCharacters = false) ∧ es ≠ [] := by
  obtain ⟨tag, children⟩ := root
  rw [Element.toNode] at h
  cases h with
  | single token _ nothing =>
    obtain rfl := nothing.eq_nil
    simp [token, Token.isCharacters, Token.written]
  | pair token _ _ closes _ nothing =>
    obtain rfl := nothing.eq_nil
    simp [token, closes, Token.isCharacters, Token.written, List.getLast?_cons]

/-- The tokens of a frame with those of an element between them can be read: an element begins and
    ends in markup, so no character data meets. -/
theorem Frame.lexed (f : Frame) {tokens : List Token} {o : Nat} {p : Position} {root : Element}
    (h : Content (placed o p tokens) [root.toNode]) (lexed : Lexed tokens) :
    Lexed (f.before ++ (tokens ++ f.after)) := by
  obtain ⟨first, last, -⟩ := content_element_ends h
  rw [map_token_placed] at first last
  refine f.lexed_before.append (lexed.append f.lexed_after ?_) ?_
  · intro a ha b _ chars
    rw [last a ha] at chars
    cases chars
  · -- behind the front comes the start of the element, which is markup
    intro a _ b hb _
    rw [List.head?_append] at hb
    cases ht : tokens.head? with
    | some t =>
      rw [ht] at hb
      cases hb
      exact (first _ ht).1
    | none =>
      obtain ⟨-, -, some⟩ := content_element_ends h
      rw [List.head?_eq_none_iff.1 ht] at some
      exact absurd rfl some

/-- A frame with an element in it does not begin with a second mark, for an element begins with
    `<`. -/
theorem Frame.unmarked_append (f : Frame) {tokens : List Token} {o : Nat} {p : Position}
    {root : Element} (h : Content (placed o p tokens) [root.toNode]) :
    Unmarked ((f.before ++ (tokens ++ f.after)).flatMap Token.written) := by
  rw [List.flatMap_append, Unmarked, List.head?_append]
  cases hb : (f.before.flatMap Token.written).head? with
  | some c =>
    have := f.unmarked
    rw [Unmarked, hb] at this
    exact this
  | none =>
    obtain ⟨first, -, some⟩ := content_element_ends h
    rw [map_token_placed] at first
    cases tokens with
    | nil => exact absurd rfl some
    | cons token tokens =>
      obtain ⟨-, s, begins⟩ := first token rfl
      rw [List.cons_append, List.flatMap_cons, begins]
      exact fun e => absurd (Option.some.inj e) (by decide)

/-! ## Parsing -/

namespace Document

/-- The root element and what stands around it, when all events are read. -/
theorem parse_of_built {text : Text} {root : Element}
    (built : (Reading.ofSource (Source.ofText text)).events.foldlM Builder.step Builder.start
      = .ok ⟨[], some root⟩)
    (complete : (Reading.ofSource (Source.ofText text)).misread = none) :
    parse text = .ok ⟨Source.ofText text,
      text.takeBytes root.range.start, root, text.dropBytes root.range.stop⟩ := by
  unfold parse
  simp only [built, bind, Except.bind, complete, Builder.finish, pure, Except.pure]
  rfl

/-- Of a document that was read: no event was refused, no token was misread, and every element was
    closed. -/
theorem built_of_parse {text : Text} {d : Document} (h : parse text = .ok d) :
    ∃ root, (Reading.ofSource (Source.ofText text)).events.foldlM Builder.step Builder.start
        = .ok ⟨[], some root⟩ ∧
      (Reading.ofSource (Source.ofText text)).misread = none ∧
      d = ⟨Source.ofText text,
        text.takeBytes root.range.start, root, text.dropBytes root.range.stop⟩ := by
  unfold parse at h
  cases built : (Reading.ofSource (Source.ofText text)).events.foldlM Builder.step Builder.start with
  | error fault =>
    simp only [built, bind, Except.bind] at h
    cases h
  | ok b =>
    cases misread : (Reading.ofSource (Source.ofText text)).misread with
    | some fault =>
      simp only [built, bind, Except.bind, misread] at h
      cases h
    | none =>
      simp only [built, bind, Except.bind, misread, Builder.finish] at h
      obtain ⟨stack, root⟩ := b
      -- an element still open, or no element at all, would have been an error
      cases stack with
      | cons inner outer => cases h
      | nil =>
        cases root with
        | none => cases h
        | some root => exact ⟨root, rfl, rfl, (Except.ok.inj h).symm⟩

/-- A root element stands in its frame: the events before it and behind it add nothing, and its
    bytes are those that the text is cut at. -/
theorem parse_frame (f : Frame) {tokens : List Token} {root : Element}
    (content : Content (placed f.prolog.size f.position tokens) [root.toNode])
    (lexed : Lexed tokens) :
    parse (f.prolog ++ tokens.flatMap Token.written ++ f.epilog)
      = .ok ⟨Source.ofText (f.prolog ++ tokens.flatMap Token.written ++ f.epilog), f.prolog, root,
        f.epilog⟩ := by
  have whole := f.written_append tokens
  have scanned := scan_flatMap_written (f.lexed content lexed)
  obtain ⟨events, complete⟩ := ofSource_append f.isMark (f.unmarked_append content)
  rw [scanned, ← whole] at events complete
  have start : f.prolog.size = f.mark.size + Text.size (f.before.flatMap Token.written) := by
    rw [Frame.prolog, Text.size_append]
  rw [placed_append, placed_append, ← start] at events
  have built : (Reading.ofSource (Source.ofText
      (f.prolog ++ tokens.flatMap Token.written ++ f.epilog))).events.foldlM Builder.step Builder.start
      = .ok ⟨[], some root⟩ := by
    rw [events]
    exact Builder.foldlM_framed (around_placed.2 f.around_before) content
      (around_placed.2 f.around_after)
  -- the root element stands at the bytes that are cut out
  obtain ⟨read, written⟩ := readAt_of_content content (tiles_placed _ _ _)
  rw [eventsWritten_placed, writtenAll_cons, writtenAll_nil, List.append_nil] at written
  have range := read.element.2.1
  have stop : f.prolog.size + root.written.size
      = (f.prolog ++ tokens.flatMap Token.written).size := by
    rw [Text.size_append, ← written]
    rfl
  rw [parse_of_built built (complete.2 rfl), range, stop,
    List.append_assoc, Text.takeBytes_size, ← List.append_assoc, Text.dropBytes_size]

/-- **A document that was read** is a frame around the content of one element.  The invariant of
    the builder gives the three parts as events, and these are cut out of the placed tokens. -/
theorem exists_content_of_parse {text : Text} {d : Document} (one : AtMostOneMark text)
    (h : parse text = .ok d) :
    ∃ (f : Frame) (tokens : List Token), f.prolog = d.prolog ∧ f.epilog = d.epilog ∧
      d.source = Source.ofText text ∧ Lexed tokens ∧
      Content (placed f.prolog.size f.position tokens) [d.root.toNode] ∧
      text = f.prolog ++ tokens.flatMap Token.written ++ f.epilog := by
  obtain ⟨root, built, complete, document⟩ := built_of_parse h
  obtain ⟨mark, body, rfl, isMark, unmarked⟩ := one.split
  obtain ⟨events, misread⟩ := ofSource_append isMark unmarked
  obtain ⟨lexed, rest, body_eq, no_rest⟩ := lexed_scan body
  obtain rfl := no_rest (misread.1 complete)
  rw [List.append_nil] at body_eq
  rw [events] at built
  -- a builder with no open element and a root has seen a whole element, with its frame around it
  have fits := Builder.Fits.run (.before (List.forall_mem_nil _)) built
  rw [List.nil_append] at fits
  generalize hes : placed mark.size .first (scan body).tokens = es at fits
  cases fits with
  | @after front es back _ around_front content around_back =>
    rw [List.append_assoc] at hes
    obtain ⟨before, rest, tokens_eq, rfl, inner⟩ := placed_eq_append hes
    obtain ⟨tokens, after, rfl, rfl, rfl⟩ := placed_eq_append inner.symm
    rw [tokens_eq] at lexed body_eq
    obtain ⟨lexed_before, lexed_rest, -⟩ := lexed_append.1 lexed
    obtain ⟨lexed_tokens, lexed_after, -⟩ := lexed_append.1 lexed_rest
    have unmarked_before : Unmarked (before.flatMap Token.written) := by
      intro first
      refine unmarked ?_
      rw [body_eq, List.flatMap_append, List.head?_append, first]
      rfl
    have start : mark.size + Text.size (before.flatMap Token.written)
        = (mark ++ before.flatMap Token.written).size := (Text.size_append _ _).symm
    rw [start] at content
    obtain ⟨f, hf⟩ : ∃ f : Frame, f = ⟨mark, before, after, isMark, lexed_before, lexed_after,
      around_placed.1 around_front, around_placed.1 around_back, unmarked_before⟩ := ⟨_, rfl⟩
    have content' : Content (placed f.prolog.size f.position tokens) [root.toNode] := by
      rw [hf]
      exact content
    have whole : mark ++ body = f.prolog ++ tokens.flatMap Token.written ++ f.epilog := by
      rw [f.written_append, hf, body_eq]
    -- parsing is a function, so that the document is the one that the frame gives
    have again := parse_frame f content' lexed_tokens
    rw [← whole, h] at again
    cases again
    exact ⟨f, tokens, rfl, rfl, rfl, lexed_tokens, content', whole⟩

/-- **A document as it was read** from a text. -/
structure Read (text : Text) (d : Document) : Prop where
  source : d.source.text = text
  written : d.written = text
  frame : ∃ f : Frame, f.prolog = d.prolog ∧ f.epilog = d.epilog
  tree : ReadAt d.prolog.size [d.root.toNode]
  legible : d.root.hasNames = true → d.root.Legible

/-- **Parsing gives a document as it was read.** -/
theorem read_of_parse {text : Text} {d : Document} (one : AtMostOneMark text)
    (h : parse text = .ok d) : d.Read text := by
  obtain ⟨f, tokens, prolog, epilog, source, lexed, content, whole⟩ := exists_content_of_parse one h
  obtain ⟨tree, written⟩ := readAt_of_content content (tiles_placed _ _ _)
  rw [eventsWritten_placed, writtenAll_cons, writtenAll_nil, List.append_nil] at written
  refine ⟨by rw [source]; rfl, ?_, ⟨f, prolog, epilog⟩, by rw [← prolog]; exact tree, fun names => ?_⟩
  · rw [Document.written, ← prolog, ← epilog, whole, ← written]
    rfl
  · have names : allHaveNames [d.root.toNode] = true := by
      rw [allHaveNames, allHaveNames, Bool.and_true]
      exact names
    rw [← map_token_placed f.prolog.size f.position tokens] at lexed
    exact (legible_of_content content (tiles_placed _ _ _) lexed names).2 _ List.mem_cons_self

end Document

/-! ## Round trip -/

/-- **Nodes spelled by tokens**: written as them, and read from them wherever they stand. -/
structure Spelled (ns : List Node) (tokens : List Token) : Prop where
  written : writtenAll ns = tokens.flatMap Token.written
  lexed : Lexed tokens
  head : ∀ t ∈ tokens.head?, t.isCharacters = true → ∃ n ∈ ns.head?, n.isText = true
  last : ∀ t ∈ tokens.getLast?, t.isCharacters = true → ∃ n ∈ ns.getLast?, n.isText = true
  read : ∀ o p, ∃ ns', Content (placed o p tokens) ns' ∧ Twins ns' ns

namespace Spelled

theorem nil : Spelled [] [] := ⟨rfl, .nil, by simp, by simp, fun _ _ => ⟨[], .nil, .nil⟩⟩

/-- Nodes that are spelled by no tokens are none. -/
theorem eq_nil {ns : List Node} (h : Spelled ns []) : ns = [] := by
  obtain ⟨ns', content, twins⟩ := h.read 0 .first
  cases content
  cases twins
  rfl

/-- Spelled nodes one behind the other, where no two texts meet. -/
theorem append {ns ns' : List Node} {tokens tokens' : List Token} (h : Spelled ns tokens)
    (h' : Spelled ns' tokens') (meet : ∀ a ∈ ns.getLast?, ∀ b ∈ ns'.head?, Separate a b) :
    Spelled (ns ++ ns') (tokens ++ tokens') := by
  refine ⟨?_, ?_, ?_, ?_, ?_⟩
  · rw [writtenAll_append, List.flatMap_append, h.written, h'.written]
  · refine h.lexed.append h'.lexed fun a ha b hb chars => ?_
    -- character data at the seam would mean two texts at the seam
    obtain ⟨n, hn, text⟩ := h.last a ha chars
    cases chars' : b.isCharacters with
    | false => rfl
    | true =>
      obtain ⟨m, hm, text'⟩ := h'.head b hb chars'
      rw [meet n hn m hm text] at text'
      cases text'
  · intro t ht chars
    cases tokens with
    | nil =>
      rw [h.eq_nil]
      exact h'.head t ht chars
    | cons first more =>
      obtain ⟨n, hn, text⟩ := h.head t ht chars
      exact ⟨n, by rw [List.head?_append, hn]; rfl, text⟩
  · intro t ht chars
    rcases List.eq_nil_or_concat tokens' with rfl | ⟨front, final, rfl⟩
    · rw [h'.eq_nil, List.append_nil]
      rw [List.append_nil] at ht
      exact h.last t ht chars
    · obtain ⟨n, hn, text⟩ := h'.last t (by simpa using ht) chars
      exact ⟨n, by rw [List.getLast?_append, hn]; rfl, text⟩
  · intro o p
    rw [placed_append]
    obtain ⟨ms, content, twins⟩ := h.read o p
    obtain ⟨ms', content', twins'⟩ := h'.read (o + Text.size (tokens.flatMap Token.written))
      (p.past (tokens.flatMap Token.written))
    exact ⟨ms ++ ms', content.append content', twins.append twins'⟩

/-- Nodes are spelled when each of them is and no two texts meet. -/
theorem of_forall {ns : List Node} (each : ∀ n ∈ ns, ∃ tokens, Spelled [n] tokens)
    (chain : ns.IsChain Separate) : ∃ tokens, Spelled ns tokens := by
  induction ns with
  | nil => exact ⟨[], nil⟩
  | cons n ns ih =>
    obtain ⟨first, spelled⟩ := each n List.mem_cons_self
    obtain ⟨more, rest⟩ := ih (fun m hm => each m (List.mem_cons_of_mem _ hm)) chain.tail
    refine ⟨first ++ more, spelled.append rest ?_⟩
    intro a ha b hb
    cases ha
    exact (List.isChain_cons.1 chain).1 b hb

/-- A node that is one token. -/
theorem of_token {n : Node} {token : Token} (written : n.written = token.written)
    (formed : token.WellFormed) (same : token.isCharacters = true → n.isText = true)
    (read : ∀ o p, ∃ n', Content (placed o p [token]) [n'] ∧ Twins [n'] [n]) :
    Spelled [n] [token] := by
  refine ⟨by simp [written], .singleton formed, ?_, ?_, ?_⟩
  · intro t ht chars
    cases ht
    exact ⟨n, rfl, same chars⟩
  · intro t ht chars
    cases ht
    exact ⟨n, rfl, same chars⟩
  · intro o p
    obtain ⟨n', content, twins⟩ := read o p
    exact ⟨[n'], content, twins⟩

/-- An element that is one tag, and is read back as one. -/
theorem single {tag : Tag} (sound : tag.Sound) (isSingle : tag.isSingle = true) :
    ∃ tokens, Spelled [.element tag []] tokens := by
  obtain ⟨content, lexeme, written, read⟩ := sound.single isSingle
  refine ⟨[.empty content], of_token ?_ lexeme (fun chars => by cases chars) fun o p => ?_⟩
  · rw [written_single isSingle, written]
  · refine ⟨_, .single rfl (tagOf_eq_ok read.attributes) .nil, .element ?_ ?_ (absurd rfl) .nil .nil⟩
    · rw [Tag.bare, Tag.bare, read.name]
    · rw [written_single rfl, written_single isSingle, written]
      rfl

/-- An element that is a content between two tags. -/
theorem pair {tag : Tag} {children : List Node} {inner : List Token} (sound : tag.Sound)
    (spelled : Spelled children inner)
    (written : (Node.element tag children).written
      = tag.opening ++ writtenAll children ++ tag.closing) :
    ∃ tokens, Spelled [.element tag children] tokens := by
  obtain ⟨content, lexeme, opening, read⟩ := sound.opening
  obtain ⟨end_, lexeme', closing, same⟩ := sound.closing
  refine ⟨.opening content :: (inner ++ [.closing end_]), ?_, ?_, ?_, ?_, ?_⟩
  · rw [writtenAll_cons, writtenAll_nil, written, opening, closing, spelled.written]
    simp
  · -- the tags at both ends are markup, so that any content may stand between them
    have last : Lexed [Token.closing end_] := .singleton lexeme'
    have first : Lexed [Token.opening content] := .singleton lexeme
    refine first.append (spelled.lexed.append last ?_) ?_
    · intro a _ b hb _
      cases hb
      rfl
    · intro a ha b _ chars
      cases ha
      cases chars
  · intro t ht chars
    cases ht
    cases chars
  · intro t ht chars
    rw [← List.cons_append, List.getLast?_concat] at ht
    cases ht
    cases chars
  · intro o p
    rw [placed, placed_append]
    obtain ⟨ns', inside, twins⟩ := spelled.read (o + (Token.opening content).written.size)
      (p.past (Token.opening content).written)
    refine ⟨_, .pair rfl (tagOf_eq_ok read.attributes) inside rfl ?_ .nil,
      .element ?_ ?_ (fun _ => ⟨opening.symm, closing.symm⟩) twins .nil⟩
    · exact read.name.trans same.symm
    · rw [Tag.bare, Tag.bare, ← read.name]
      rfl
    · rw [written_pair rfl, written, opening, closing, twins.writtenAll_eq]
      rfl

end Spelled

/-- **A legible tree is spelled by tokens.**  By induction on the tree; an element without
    children is one token or two, as its tag says. -/
theorem exists_spelled {n : Node} (h : n.Every Node.Legible) : ∃ tokens, Spelled [n] tokens := by
  induction n using Node.induct with
  | element tag children ih =>
    obtain ⟨⟨sound, -, chain⟩, below⟩ := every_element.1 h
    obtain ⟨inner, spelled⟩ := Spelled.of_forall (fun n hn => ih n hn (below n hn)) chain
    -- a single tag that has got children is written as two
    cases single : tag.isSingle with
    | false => exact Spelled.pair sound spelled (written_pair single _)
    | true =>
      cases children with
      | nil => exact Spelled.single sound single
      | cons n ns =>
        exact Spelled.pair sound spelled (written_of_ne_nil (List.cons_ne_nil _ _))
  | text raw =>
    obtain ⟨chunk, value, resolved⟩ := h.own
    exact ⟨[.characters raw], .of_token rfl chunk (fun _ => rfl)
      fun o p => ⟨_, .text rfl resolved .nil, .leaf rfl .nil⟩⟩
  | comment raw =>
    obtain ⟨body, lexeme, rfl⟩ := h.own
    exact ⟨[.comment body], .of_token rfl lexeme (fun chars => by cases chars)
      fun o p => ⟨_, .comment rfl .nil, .leaf rfl .nil⟩⟩
  | other markup =>
    obtain ⟨token, other, lexeme, rfl⟩ := h.own
    have no_chars : token.isCharacters = false := by
      cases token with
      | characters raw => cases other
      | _ => rfl
    refine ⟨[token], .of_token rfl ((Token.wellFormed_iff no_chars).2 lexeme) (fun chars => ?_)
      fun o p => ⟨_, .other other .nil, .leaf rfl .nil⟩⟩
    rw [no_chars] at chars
    cases chars

namespace Document

/-- **A legible tree in a frame is read back as its twin**: its tokens are scanned, the builder
    adds its nodes, and what it builds differs in what it remembers. -/
theorem parse_twins (f : Frame) {root : Element} (h : root.Legible) :
    ∃ d, parse (f.prolog ++ root.written ++ f.epilog) = .ok d ∧ d.prolog = f.prolog ∧
      d.epilog = f.epilog ∧ Twins [d.root.toNode] [root.toNode] ∧
      AtMostOneMark (f.prolog ++ root.written ++ f.epilog) := by
  obtain ⟨tokens, spelled⟩ := exists_spelled h
  obtain ⟨ns, content, twins⟩ := spelled.read f.prolog.size f.position
  obtain ⟨root', _, rfl, own, nothing⟩ := twins.exists_element
  cases nothing
  have written : root.written = tokens.flatMap Token.written := by
    rw [← spelled.written, writtenAll_cons, writtenAll_nil, List.append_nil]
    rfl
  refine ⟨⟨Source.ofText (f.prolog ++ root.written ++ f.epilog), f.prolog, root', f.epilog⟩, ?_, rfl,
    rfl, own, ?_⟩
  · rw [written]
    exact parse_frame f content spelled.lexed
  · have marked := atMostOneMark_append f.isMark (f.unmarked_append content)
    rwa [written, f.written_append]

/-- **A legible tree in a frame is read back**, as a tree that says the same, in the same frame. -/
theorem parse_written (f : Frame) {root : Element} (h : root.Legible) :
    ∃ d, parse (f.prolog ++ root.written ++ f.epilog) = .ok d ∧ d.prolog = f.prolog ∧
      d.epilog = f.epilog ∧ d.root.bare = root.bare ∧
      AtMostOneMark (f.prolog ++ root.written ++ f.epilog) := by
  obtain ⟨d, parsed, prolog, epilog, twins, one⟩ := parse_twins f h
  obtain ⟨bare, -⟩ := twins.of_element
  exact ⟨d, parsed, prolog, epilog, bare, one⟩

end Document

end XmlGraft.Markup
