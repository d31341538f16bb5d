/-
  Content — which events make up which nodes.

  The builder reads events with a stack of open elements.  What it builds is said here as a grammar
  over whole lists of events (`Content`), in which an element is its start tag, the content between,
  and its end tag.  A stack machine and a grammar meet in two lemmas: the machine accepts what the
  grammar generates, and what the machine accepts was generated.

  1. **Places** (`place_flatMap`): the tokens of a text are placed one behind the other, each with
     its own characters as excerpt.  `Tiles` says of events what is known of such a list, without
     the tokens, so that a part of it is known as well.

  2. **Run** (`foldlM_content`): the events of a content add its nodes to the innermost element.
     The induction is on the grammar; the stack below is any, and comes out as it went in.

  3. **Around the root** (`Event.Around`, `foldlM_around`): comments, sections, instructions and
     spaces leave the builder as it is.

  4. **Invariant** (`Builder.Fits`): what a builder holds says what the events so far were.  Before
     the root element there is nothing on the stack and no root, inside it there is a stack with the
     unfinished contents (`Stack`), behind it there is a root.  One event keeps it (`Fits.step`), by
     cases on the token, so a whole run does (`Fits.run`).
-/
import XmlGraft.Proofs.Markup.Nodes

namespace XmlGraft.Markup

/-! ## Places -/

/-- Tokens as events, the first one at byte `o` and at a position. -/
def placed (o : Nat) (p : Position) : List Token → List Event
  | [] => []
  | token :: tokens =>
    ⟨token, ⟨⟨o, o + token.written.size⟩, token.written⟩, some p⟩
      :: placed (o + token.written.size) (p.past token.written) tokens

/-- The cursor moves past a piece in front, and keeps what is behind it. -/
theorem advanceFrom_append (s t : Text) (o : Nat) (p : Position) :
    Cursor.advanceFrom (o + s.size) o p (s ++ t) = (s, ⟨o + s.size, p.past s, t⟩) := by
  induction s generalizing o p with
  | nil =>
    cases t with
    | nil => rfl
    | cons c t =>
      rw [List.nil_append, Cursor.advanceFrom, if_neg (by simp)]
      rfl
  | cons c s ih =>
    have := c.utf8Size_pos
    rw [List.cons_append, Text.size_cons, Cursor.advanceFrom, if_pos (by omega), ← Nat.add_assoc, ih]
    rfl

/-- **The tokens of a text are placed one behind the other**, whatever is left behind them. -/
theorem place_flatMap (tokens : List Token) (rest : Text) (o : Nat) (p : Position) :
    place o ⟨o, p, tokens.flatMap Token.written ++ rest⟩ tokens = placed o p tokens := by
  induction tokens generalizing o p with
  | nil => rfl
  | cons token tokens ih =>
    rw [List.flatMap_cons, List.append_assoc, place, placed]
    simp only [Cursor.advance, advanceFrom_append, if_true, ih]

theorem map_token_placed (o : Nat) (p : Position) (tokens : List Token) :
    (placed o p tokens).map (·.token) = tokens := by
  induction tokens generalizing o p with
  | nil => rfl
  | cons token tokens ih => rw [placed, List.map_cons, ih]

/-- Tokens behind others are placed where these end. -/
theorem placed_append (o : Nat) (p : Position) (front back : List Token) :
    placed o p (front ++ back) = placed o p front ++
      placed (o + Text.size (front.flatMap Token.written)) (p.past (front.flatMap Token.written))
        back := by
  induction front generalizing o p with
  | nil => rfl
  | cons token front ih =>
    rw [List.cons_append, placed, placed, ih, List.cons_append, List.flatMap_cons, Text.size_append,
      Nat.add_assoc, Position.past, Position.past, Position.past, List.foldl_append]

/-- A part of placed tokens is placed itself, as many tokens as it has events. -/
theorem placed_eq_append {o : Nat} {p : Position} {tokens : List Token} {front back : List Event}
    (h : placed o p tokens = front ++ back) :
    ∃ ts ts', tokens = ts ++ ts' ∧ front = placed o p ts ∧
      back = placed (o + Text.size (ts.flatMap Token.written))
        (p.past (ts.flatMap Token.written)) ts' := by
  have whole : tokens = front.map (·.token) ++ back.map (·.token) := by
    rw [← List.map_append, ← h, map_token_placed]
  refine ⟨front.map (·.token), back.map (·.token), whole, ?_⟩
  rw [whole, placed_append] at h
  -- the two fronts are as long as each other, so that the lists are cut at the same place
  refine List.append_inj h.symm ?_
  have := congrArg List.length (map_token_placed o p (front.map (·.token)))
  rw [List.length_map, List.length_map] at this
  exact this.symm

/-- **Events tile a source** from byte `o` on: each one's excerpt is its token, and begins where the
    one before ends. -/
def Tiles (o : Nat) : List Event → Prop
  | [] => True
  | e :: es =>
    e.excerpt = ⟨⟨o, o + e.token.written.size⟩, e.token.written⟩ ∧ e.position.isSome = true ∧
      Tiles (o + e.token.written.size) es

/-- The events as they are written. -/
def eventsWritten (es : List Event) : Text := es.flatMap fun e => e.token.written

@[simp] theorem eventsWritten_nil : eventsWritten [] = [] := rfl

@[simp] theorem eventsWritten_cons (e : Event) (es : List Event) :
    eventsWritten (e :: es) = e.token.written ++ eventsWritten es := rfl

@[simp] theorem eventsWritten_append (es es' : List Event) :
    eventsWritten (es ++ es') = eventsWritten es ++ eventsWritten es' := List.flatMap_append

/-- Placed tokens are written as the tokens. -/
theorem eventsWritten_placed (o : Nat) (p : Position) (tokens : List Token) :
    eventsWritten (placed o p tokens) = tokens.flatMap Token.written := by
  conv => rhs; rw [← map_token_placed o p tokens, List.flatMap_map]
  rfl

/-- Events in two parts tile a source when the second part begins where the first ends. -/
theorem tiles_append {o : Nat} {es es' : List Event} :
    Tiles o (es ++ es') ↔ Tiles o es ∧ Tiles (o + (eventsWritten es).size) es' := by
  induction es generalizing o with
  | nil => simp [Tiles]
  | cons e es ih =>
    rw [List.cons_append, Tiles, Tiles, ih, eventsWritten_cons, Text.size_append, Nat.add_assoc,
      and_assoc, and_assoc]

theorem tiles_placed (o : Nat) (p : Position) (tokens : List Token) :
    Tiles o (placed o p tokens) := by
  induction tokens generalizing o p with
  | nil => trivial
  | cons token tokens ih => exact ⟨rfl, rfl, ih _ _⟩

/-! ## Content -/

/-- The tag with the end tag that was read for it. -/
def Tag.closedBy (t : Tag) (closing : Excerpt) : Tag :=
  { t with origin := t.origin.map fun o => { o with closing := some closing } }

/-- **The nodes that events make up.** -/
inductive Content : List Event → List Node → Prop
  | nil : Content [] []
  | text {e : Event} {es : List Event} {ns : List Node} {raw value : Text} :
      e.token = .characters raw → resolve raw = .ok value → Content es ns →
      Content (e :: es) (.text e.excerpt.text :: ns)
  | comment {e : Event} {es : List Event} {ns : List Node} {body : Text} :
      e.token = .comment body → Content es ns → Content (e :: es) (.comment e.excerpt.text :: ns)
  | other {e : Event} {es : List Event} {ns : List Node} :
      e.token.isOther = true → Content es ns → Content (e :: es) (.other e.excerpt.text :: ns)
  | single {e : Event} {es : List Event} {ns : List Node} {content : Text} {tag : Tag} :
      e.token = .empty content → Builder.tagOf e content = .ok tag → Content es ns →
      Content (e :: es) (.element tag [] :: ns)
  | pair {e last : Event} {inner es : List Event} {children ns : List Node} {content end_ : Text}
      {tag : Tag} :
      e.token = .opening content → Builder.tagOf e content = .ok tag → Content inner children →
      last.token = .closing end_ → tag.name = Builder.closingName end_ → Content es ns →
      Content (e :: (inner ++ last :: es))
        (.element (tag.closedBy last.excerpt) children :: ns)

/-- Contents one behind the other make up their nodes one behind the other. -/
theorem Content.append {es es' : List Event} {ns ns' : List Node} (h : Content es ns)
    (h' : Content es' ns') : Content (es ++ es') (ns ++ ns') := by
  induction h with
  | nil => exact h'
  | text token resolved _ ih => exact .text token resolved ih
  | comment token _ ih => exact .comment token ih
  | other token _ ih => exact .other token ih
  | single token read _ ih => exact .single token read ih
  | pair token read inner closes same _ _ ih =>
    rw [List.cons_append, List.append_assoc, List.cons_append]
    exact .pair token read inner closes same ih

/-- Without nodes there were no events: each event makes up one, or is a tag of one. -/
theorem Content.eq_nil {es : List Event} (h : Content es []) : es = [] := by
  cases h
  rfl

namespace Builder

/-- Sections and instructions become nodes, wherever they stand. -/
theorem step_other {b : Builder} {e : Event} (h : e.token.isOther = true) :
    b.step e = .ok (b.push (.other e.excerpt.text)) := by
  unfold step
  cases token : e.token with
  | cdata _ => rfl
  | instruction _ => rfl
  | _ => rw [token] at h; cases h

/-- Character data becomes a text where an element is open, or where it is only spaces. -/
theorem step_characters {b : Builder} {e : Event} {raw value : Text}
    (token : e.token = .characters raw) (resolved : resolve raw = .ok value)
    (fits : b.openElements ≠ [] ∨ Text.isSpaces e.excerpt.text = true) :
    b.step e = .ok (b.push (.text e.excerpt.text)) := by
  unfold step
  rw [token]
  simp only [addText, resolved]
  rw [if_neg]
  -- it would be refused only where no element is open and it is more than spaces
  intro h
  rcases fits with inside | spaces
  · rw [List.isEmpty_eq_false_iff.2 inside, Bool.false_and] at h
    cases h
  · rw [spaces, Bool.not_true, Bool.and_false] at h
    cases h

/-- A start tag opens an element, inside another one or as the root. -/
theorem step_opening {b : Builder} {e : Event} {content : Text} {tag : Tag}
    (token : e.token = .opening content) (read : tagOf e content = .ok tag)
    (fits : b.openElements ≠ [] ∨ b.root = none) :
    b.step e = .ok { b with openElements := ⟨tag, []⟩ :: b.openElements } := by
  unfold step
  rw [token]
  simp only [openElement, read]
  rw [if_neg]
  · rfl
  · intro h
    rcases fits with inside | none
    · rw [List.isEmpty_eq_false_iff.2 inside, Bool.false_and] at h
      cases h
    · rw [none, Option.isSome_none, Bool.and_false] at h
      cases h

/-- A single tag is a complete element. -/
theorem step_empty {b : Builder} {e : Event} {content : Text} {tag : Tag}
    (token : e.token = .empty content) (read : tagOf e content = .ok tag) :
    b.step e = b.attach ⟨tag, []⟩ e.start := by
  unfold step
  rw [token]
  simp only [emptyElement, read]
  rfl

/-- An end tag completes the innermost element, when it has its name. -/
theorem step_closing {b : Builder} {e : Event} {end_ : Text} {inner : OpenElement}
    {outer : List OpenElement} (token : e.token = .closing end_)
    (stack : b.openElements = inner :: outer) (same : inner.tag.name = closingName end_) :
    b.step e = { b with openElements := outer }.attach
      ⟨inner.tag.closedBy e.excerpt, inner.reversed.reverse⟩ inner.start := by
  unfold step
  rw [token]
  simp only [closeElement, stack]
  rw [if_pos same]
  rfl

/-- Where an element is open, a node is added to its children, the last one first. -/
theorem push_of_cons {b : Builder} {parent : OpenElement} {outer : List OpenElement}
    (stack : b.openElements = parent :: outer) (n : Node) :
    b.push n = { b with openElements := { parent with reversed := n :: parent.reversed } :: outer } := by
  unfold push
  rw [stack]

/-- Where an element is open, a complete element is one more child of it. -/
theorem attach_of_cons {b : Builder} {parent : OpenElement} {outer : List OpenElement}
    (stack : b.openElements = parent :: outer) (e : Element) (start : Nat) :
    b.attach e start = .ok (b.push e.toNode) := by
  unfold attach
  rw [stack]

/-- **The events of a content add its nodes to the innermost element.**  By induction on the
    grammar; an element opens, its content is added to it, and it is closed and added itself. -/
theorem foldlM_content {es : List Event} {ns : List Node} (h : Content es ns) :
    ∀ (parent : OpenElement) (outer : List OpenElement) (root : Option Element),
      es.foldlM step ⟨parent :: outer, root⟩
        = .ok ⟨{ parent with reversed := ns.reverse ++ parent.reversed } :: outer, root⟩ := by
  induction h with
  | nil => intro parent outer root; rfl
  | text token resolved _ ih =>
    intro parent outer root
    rw [List.foldlM_cons, step_characters token resolved (.inl (List.cons_ne_nil _ _)), push_of_cons rfl]
    exact (ih _ _ _).trans (by simp)
  | comment token _ ih =>
    intro parent outer root
    rw [List.foldlM_cons, step, token, push_of_cons rfl]
    exact (ih _ _ _).trans (by simp)
  | other token _ ih =>
    intro parent outer root
    rw [List.foldlM_cons, step_other token, push_of_cons rfl]
    exact (ih _ _ _).trans (by simp)
  | single token read _ ih =>
    intro parent outer root
    rw [List.foldlM_cons, step_empty token read, attach_of_cons rfl, push_of_cons rfl]
    exact (ih _ _ _).trans (by simp [Element.toNode])
  | @pair e last inner es children ns content end_ tag token read _ closes same _ ihi ih =>
    intro parent outer root
    have begins := step_opening (b := ⟨parent :: outer, root⟩) token read (.inl (List.cons_ne_nil _ _))
    have inside := ihi ⟨tag, []⟩ (parent :: outer) root
    rw [List.append_nil] at inside
    have ends := step_closing (b := ⟨⟨tag, children.reverse⟩ :: parent :: outer, root⟩) closes rfl same
    rw [attach_of_cons rfl, push_of_cons rfl, List.reverse_reverse] at ends
    -- the three parts one after the other: what opens, what is inside, what closes
    rw [List.foldlM_cons, begins]
    show (inner ++ last :: es).foldlM step _ = _
    rw [List.foldlM_append, inside]
    show (last :: es).foldlM step _ = _
    rw [List.foldlM_cons, ends]
    exact (ih _ _ _).trans (by simp [Element.toNode])

/-- **The events of one element give the root element**, when nothing is open and no root is
    there. -/
theorem foldlM_root {es : List Event} {root : Element} (h : Content es [root.toNode]) :
    es.foldlM step start = .ok ⟨[], some root⟩ := by
  obtain ⟨tag, children⟩ := root
  simp only [Element.toNode] at h
  cases h with
  | single token read nothing =>
    obtain rfl := nothing.eq_nil
    rw [List.foldlM_cons, step_empty token read]
    rfl
  -- the element opens, its content is added, and its end tag leaves nothing open
  | @pair e last inner es _ _ content end_ tag token read inside closes same nothing =>
    obtain rfl := nothing.eq_nil
    rw [List.foldlM_cons, step_opening token read (.inr rfl)]
    show (inner ++ [last]).foldlM step _ = _
    rw [List.foldlM_append, foldlM_content inside]
    show [last].foldlM step _ = _
    rw [List.foldlM_cons, step_closing closes rfl same]
    simp [attach, start]

end Builder

/-! ## Around the root element -/

/-- **What can stand outside the root element**: comments, sections, instructions and spaces, and
    a declaration only before the root element has begun. -/
def Event.Around (begun : Bool) (e : Event) : Prop :=
  match e.token with
  | .characters raw => (∃ value, resolve raw = .ok value) ∧ Text.isSpaces e.excerpt.text = true
  | .comment _ | .cdata _ | .instruction _ => True
  | .declaration _ | .doctype _ => begun = false
  | .opening _ | .empty _ | .closing _ => False

namespace Builder

/-- Nothing is added outside the root element. -/
theorem step_around {b : Builder} {e : Event} (outside : b.openElements = [])
    (h : e.Around b.root.isSome) : b.step e = .ok b := by
  have push (n : Node) : b.push n = b := by
    unfold Builder.push
    rw [outside]
  rw [Event.Around] at h
  cases token : e.token with
  | characters raw =>
    rw [token] at h
    obtain ⟨⟨value, resolved⟩, spaces⟩ := h
    rw [step_characters token resolved (.inr spaces), push]
  | declaration | doctype =>
    rw [token] at h
    simp only [step, token, declaration, begun, outside, h]
    rfl
  | comment | cdata | instruction => simp only [step, token, push]
  | _ =>
    rw [token] at h
    cases h

/-- Nothing is added by any number of such events. -/
theorem foldlM_around {b : Builder} {es : List Event} (outside : b.openElements = [])
    (h : ∀ e ∈ es, e.Around b.root.isSome) : es.foldlM step b = .ok b := by
  induction es with
  | nil => rfl
  | cons e es ih =>
    rw [List.foldlM_cons, step_around outside (h e List.mem_cons_self)]
    exact ih fun e' he => h e' (List.mem_cons_of_mem _ he)

/-- **One element between what can stand around it** is the root element. -/
theorem foldlM_framed {front es back : List Event} {root : Element}
    (around_front : ∀ e ∈ front, e.Around false) (content : Content es [root.toNode])
    (around_back : ∀ e ∈ back, e.Around true) :
    (front ++ (es ++ back)).foldlM step start = .ok ⟨[], some root⟩ := by
  rw [List.foldlM_append, foldlM_around (b := start) rfl around_front]
  show (es ++ back).foldlM step start = _
  rw [List.foldlM_append, foldlM_root content]
  exact foldlM_around (b := ⟨[], some root⟩) rfl around_back

/-! ## What a builder holds -/

/-- The events that leave a stack of open elements, the innermost first. -/
inductive Stack : List Event → List OpenElement → Prop
  | nil : Stack [] []
  | cons {es inner : List Event} {outer : List OpenElement} {e : Event} {content : Text} {tag : Tag}
      {reversed : List Node} :
      Stack es outer → e.token = .opening content → tagOf e content = .ok tag →
      Content inner reversed.reverse → Stack (es ++ e :: inner) (⟨tag, reversed⟩ :: outer)

/-- **What a builder holds says what the events so far were.** -/
inductive Fits : List Event → Builder → Prop
  | before {es : List Event} : (∀ e ∈ es, e.Around false) → Fits es ⟨[], none⟩
  | inside {front es : List Event} {parent : OpenElement} {outer : List OpenElement} :
      (∀ e ∈ front, e.Around false) → Stack es (parent :: outer) →
      Fits (front ++ es) ⟨parent :: outer, none⟩
  | after {front es back : List Event} {root : Element} :
      (∀ e ∈ front, e.Around false) → Content es [root.toNode] → (∀ e ∈ back, e.Around true) →
      Fits (front ++ es ++ back) ⟨[], some root⟩

/-- One more node in the innermost of the open elements. -/
theorem Stack.push {es : List Event} {parent : OpenElement} {outer : List OpenElement}
    (h : Stack es (parent :: outer)) {es' : List Event} {n : Node} (content : Content es' [n]) :
    Stack (es ++ es') ({ parent with reversed := n :: parent.reversed } :: outer) := by
  cases h with
  | cons below token read inner =>
    rw [List.append_assoc, List.cons_append]
    refine .cons below token read ?_
    -- the children are kept the last one first, so that a new one comes in front
    rw [List.reverse_cons]
    exact inner.append content

/-- A complete element goes to its parent, or is the root. -/
theorem Fits.attach {front es es' : List Event} {stack : List OpenElement} {b : Builder}
    {element : Element} {start : Nat} (around : ∀ e ∈ front, e.Around false) (below : Stack es stack)
    (content : Content es' [element.toNode])
    (h : Builder.attach ⟨stack, none⟩ element start = .ok b) : Fits (front ++ es ++ es') b := by
  -- without an open element it is the root, and nothing has been read behind it yet
  cases below with
  | nil =>
    rw [Builder.attach] at h
    cases h
    have := Fits.after around content (List.forall_mem_nil _)
    rwa [List.append_nil, ← List.append_nil front] at this
  | cons below token read inner =>
    rw [attach_of_cons rfl, push_of_cons rfl] at h
    cases h
    rw [List.append_assoc]
    exact .inside around ((Stack.cons below token read inner).push content)

/-! ### One event -/

/-- Character data was let through: it resolves, and it stands in an element or is only spaces. -/
theorem of_step_characters {b b' : Builder} {e : Event} {raw : Text}
    (token : e.token = .characters raw) (h : b.step e = .ok b') :
    (∃ value, resolve raw = .ok value) ∧
      (b.openElements ≠ [] ∨ Text.isSpaces e.excerpt.text = true) ∧
      b' = b.push (.text e.excerpt.text) := by
  unfold step at h
  rw [token] at h
  simp only [addText] at h
  split at h
  · cases h
  · next value resolved =>
    split at h
    · cases h
    · next fits =>
      refine ⟨⟨value, resolved⟩, ?_, (Except.ok.inj h).symm⟩
      cases hs : b.openElements with
      | cons _ _ => exact .inl (List.cons_ne_nil _ _)
      | nil =>
        rw [hs] at fits
        simpa using fits

/-- A start tag was let through: its attributes were read, and no root element stands before it. -/
theorem of_step_opening {b b' : Builder} {e : Event} {content : Text}
    (token : e.token = .opening content) (h : b.step e = .ok b') :
    ∃ tag, tagOf e content = .ok tag ∧ (b.openElements ≠ [] ∨ b.root = none) ∧
      b' = { b with openElements := ⟨tag, []⟩ :: b.openElements } := by
  unfold step at h
  rw [token] at h
  simp only [openElement] at h
  split at h
  · cases h
  · next fits =>
    cases read : tagOf e content with
    | error fault =>
      rw [read] at h
      cases h
    | ok tag =>
      rw [read] at h
      refine ⟨tag, rfl, ?_, (Except.ok.inj h).symm⟩
      cases hs : b.openElements with
      | cons _ _ => exact .inl (List.cons_ne_nil _ _)
      | nil =>
        rw [hs] at fits
        simpa using fits

/-- A single tag was let through: its attributes were read, and the element found its place. -/
theorem of_step_empty {b b' : Builder} {e : Event} {content : Text} (token : e.token = .empty content)
    (h : b.step e = .ok b') :
    ∃ tag, tagOf e content = .ok tag ∧ b.attach ⟨tag, []⟩ e.start = .ok b' := by
  cases read : tagOf e content with
  | ok tag => exact ⟨tag, rfl, by rw [← h, step_empty token read]⟩
  | error fault =>
    unfold step at h
    rw [token] at h
    simp only [emptyElement, read] at h
    cases h

/-- An end tag was let through: an element is open, and it has the same name. -/
theorem of_step_closing {b b' : Builder} {e : Event} {end_ : Text} (token : e.token = .closing end_)
    (h : b.step e = .ok b') :
    ∃ inner outer, b.openElements = inner :: outer ∧ inner.tag.name = closingName end_ ∧
      { b with openElements := outer }.attach
        ⟨inner.tag.closedBy e.excerpt, inner.reversed.reverse⟩ inner.start = .ok b' := by
  unfold step at h
  rw [token] at h
  simp only [closeElement] at h
  split at h
  · cases h
  · next inner outer stack =>
    split at h
    · next same => exact ⟨inner, outer, stack, same, h⟩
    · cases h

/-- A declaration was let through: the root element has not begun, and nothing was added. -/
theorem of_declaration {b b' : Builder} {e : Event} (h : b.declaration e = .ok b') :
    b.begun = false ∧ b' = b := by
  unfold declaration at h
  split at h
  · cases h
  · next fits => exact ⟨Bool.eq_false_iff.2 fits, (Except.ok.inj h).symm⟩

/-- An event that makes up a node is added to the innermost element, or stands outside. -/
theorem Fits.push {es : List Event} {b : Builder} {e : Event} {n : Node} (h : Fits es b)
    (content : Content [e] [n]) (around : b.openElements = [] → ∀ begun, e.Around begun) :
    Fits (es ++ [e]) (b.push n) := by
  cases h with
  -- outside the root element nothing is added, and the event joins those around it
  | before front =>
    exact .before (List.forall_mem_append.2 ⟨front, List.forall_mem_singleton.2 (around rfl false)⟩)
  | inside front stack =>
    rw [push_of_cons rfl, List.append_assoc]
    exact .inside front (stack.push content)
  | after front inner back =>
    rw [List.append_assoc]
    exact .after front inner
      (List.forall_mem_append.2 ⟨back, List.forall_mem_singleton.2 (around rfl true)⟩)

/-- A declaration comes before the root element begins. -/
theorem Fits.declare {es : List Event} {b b' : Builder} {e : Event} (h : Fits es b)
    (around : e.Around false) (read : b.declaration e = .ok b') : Fits (es ++ [e]) b' := by
  obtain ⟨begun, rfl⟩ := of_declaration read
  cases h with
  | before front =>
    exact .before (List.forall_mem_append.2 ⟨front, List.forall_mem_singleton.2 around⟩)
  | inside _ _ => cases begun
  | after _ _ _ => cases begun

/-- **One event keeps the invariant**: an event that does not end the reading is one that can
    stand outside, makes up a node, or is a tag.  By cases on its token, as the builder decides. -/
theorem Fits.step {es : List Event} {b b' : Builder} {e : Event} (h : Fits es b)
    (read : b.step e = .ok b') : Fits (es ++ [e]) b' := by
  cases token : e.token with
  | characters raw =>
    obtain ⟨⟨value, resolved⟩, fits, rfl⟩ := of_step_characters token read
    refine h.push (.text token resolved .nil) fun outside begun => ?_
    -- outside the root element, nothing but spaces was let through
    rw [outside] at fits
    simp only [Event.Around, token]
    exact ⟨⟨value, resolved⟩, fits.resolve_left fun some => some rfl⟩
  | comment body =>
    simp only [Builder.step, token] at read
    cases read
    exact h.push (.comment token .nil) fun _ _ => by simp only [Event.Around, token]
  | cdata body | instruction body =>
    simp only [Builder.step, token] at read
    cases read
    exact h.push (.other (by rw [token]; rfl) .nil) fun _ _ => by simp only [Event.Around, token]
  | declaration body | doctype body =>
    simp only [Builder.step, token] at read
    exact h.declare (by simp only [Event.Around, token]) read
  | opening content =>
    obtain ⟨tag, tagged, fits, rfl⟩ := of_step_opening token read
    cases h with
    -- the first start tag: from here on the root element is open
    | before front => exact .inside front (.cons .nil token tagged .nil)
    | inside front stack =>
      rw [List.append_assoc]
      exact .inside front (.cons stack token tagged .nil)
    | after _ _ _ =>
      rcases fits with some | none
      · -- behind the root element a start tag is refused
        exact absurd rfl some
      · cases none
  | empty content =>
    obtain ⟨tag, tagged, attached⟩ := of_step_empty token read
    have content : Content [e] [(⟨tag, []⟩ : Element).toNode] := .single token tagged .nil
    cases h with
    | before front =>
      have := Fits.attach front .nil content attached
      rwa [List.append_nil] at this
    | inside front stack => exact Fits.attach front stack content attached
    | after _ _ _ => cases attached
  | closing end_ =>
    obtain ⟨inner, outer, stacked, same, attached⟩ := of_step_closing token read
    cases h with
    | before _ => cases stacked
    | after _ _ _ => cases stacked
    | inside front stack =>
      obtain ⟨rfl, rfl⟩ := List.cons.inj stacked
      -- the innermost element is complete, and is one more node of the next
      cases stack with
      | @cons es₀ events _ e₀ content tag reversed below opens tagged inside =>
        have closed := Fits.attach front below
          (Content.pair opens tagged inside token same .nil) attached
        simpa using closed

/-- **A run of events keeps what a builder holds in step with the events.**  By induction on the
    events, for any that were read before. -/
theorem Fits.run {es es' : List Event} {b b' : Builder} (h : Fits es b)
    (read : es'.foldlM Builder.step b = .ok b') : Fits (es ++ es') b' := by
  induction es' generalizing es b with
  | nil =>
    cases read
    rwa [List.append_nil]
  | cons e es' ih =>
    rw [List.foldlM_cons] at read
    cases first : b.step e with
    | error fault =>
      rw [first] at read
      cases read
    | ok b₁ =>
      rw [first] at read
      have := ih (h.step first) read
      rwa [List.append_assoc] at this

end Builder

end XmlGraft.Markup
