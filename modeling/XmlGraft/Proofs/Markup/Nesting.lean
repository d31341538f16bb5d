/-
  Nesting — which texts are documents, and what is wrong with the others.

  The builder is a machine with a stack of open elements and a place for the root.  What it accepts
  is said here without either: as a grammar over the events of a text, and as the first event that
  breaks its rules.

  1. **Grammar** (`Nested`, `WellNested`): tags that pair up by name, in one element with nothing
     but comments, instructions, spaces and, in front, declarations around it.

  2. **Counting tags** (`Inside`): an element is open where there are more start tags than end tags.
     That nothing is open behind what nests, and that no event of it leaves more tags open than are
     closed behind it (`Nested.covered`), says without a stack which element is the innermost one.

  3. **Faults** (`Violation`, `FirstFault`): an event that cannot stand behind the events before it,
     and what is missing at the end of the text.

  4. **One event** (`step_of_violation`, `violation_of_step`): the builder refuses an event exactly
     when it is a violation, with the error that belongs to it.  Three facts link the machine with
     the events: whether an element is open, whether one has begun, and which one is the innermost
     (`Fits.inside_iff`, `Fits.begun_iff`, `Fits.innermost`).

  5. **A run** (`exists_fits`, `foldlM_of_violation`): without a violation all events are read, and
     the first one ends the reading.  So the first fault is what the builder says (`refused_iff`).

  6. **Parsing** (`parse_iff`): a text that can be read is a document exactly when it is well
     nested, and otherwise its first fault is the error.  A section outside the root element is a
     fault that parsing does not see (`not_parse_iff_sectionOutside`).
-/
import XmlGraft.Proofs.Markup.Documents

namespace XmlGraft.Markup

/-! ## Places in a run of events -/

/-- A property of every event and the events before it. -/
def AtEach (P : List Event → Event → Prop) (es : List Event) : Prop :=
  ∀ before e after, es = before ++ e :: after → P before e

theorem atEach_nil {P : List Event → Event → Prop} : AtEach P [] := by
  intro before e after h
  exact absurd h (by simp)

/-- The first event has nothing before it, and each of the others has it before the rest. -/
theorem atEach_cons {P : List Event → Event → Prop} {e : Event} {es : List Event} :
    AtEach P (e :: es) ↔ P [] e ∧ AtEach (fun before => P (e :: before)) es := by
  constructor
  · intro h
    refine ⟨h [] e es rfl, fun before e' after whole => h (e :: before) e' after ?_⟩
    rw [whole, List.cons_append]
  · rintro ⟨first, rest⟩ before e' after whole
    cases before with
    | nil =>
      obtain ⟨rfl, -⟩ := List.cons.inj whole
      exact first
    | cons e₁ before =>
      obtain ⟨rfl, behind⟩ := List.cons.inj whole
      exact rest before e' after behind

/-- The last event has all others before it. -/
theorem atEach_concat {P : List Event → Event → Prop} {es : List Event} {e : Event} :
    AtEach P (es ++ [e]) ↔ AtEach P es ∧ P es e := by
  constructor
  · intro h
    constructor
    · intro before e' after whole
      refine h before e' (after ++ [e]) ?_
      rw [whole, List.append_assoc, List.cons_append]
    · exact h es e [] rfl
  · rintro ⟨each, last⟩ before e' after whole
    -- an event with nothing behind it is the last one; any other lies in the front
    rcases List.eq_nil_or_concat after with rfl | ⟨after, e₁, rfl⟩
    · obtain ⟨rfl, same⟩ := List.append_inj' whole rfl
      obtain rfl := List.singleton_inj.1 same
      exact last
    · rw [List.concat_eq_append, ← List.cons_append, ← List.append_assoc] at whole
      obtain ⟨whole, -⟩ := List.append_inj' whole rfl
      exact each before e' after whole

/-- What holds at each event holds at each event of a front. -/
theorem AtEach.front {P : List Event → Event → Prop} {es es' : List Event}
    (h : AtEach P (es ++ es')) : AtEach P es := by
  intro before e after whole
  refine h before e (after ++ es') ?_
  rw [whole, List.append_assoc, List.cons_append]

/-- A property of every event can be checked event by event. -/
def decidableAtEach : (P : List Event → Event → Prop) → ((before : List Event) → (e : Event) →
    Decidable (P before e)) → (es : List Event) → Decidable (AtEach P es)
  | _, _, [] => .isTrue atEach_nil
  | P, own, e :: es =>
    have := own [] e
    have := decidableAtEach (fun before => P (e :: before)) (fun before => own (e :: before)) es
    decidable_of_iff _ atEach_cons.symm

instance (P : List Event → Event → Prop) [own : (before : List Event) → (e : Event) →
    Decidable (P before e)] (es : List Event) : Decidable (AtEach P es) :=
  decidableAtEach P own es

/-! ## The grammar -/

namespace Token

/-- A start tag, behind which an element is open. -/
def opens : Token → Bool
  | opening _ => true
  | _ => false

/-- An end tag. -/
def closes : Token → Bool
  | closing _ => true
  | _ => false

/-- An element begins: a start tag or a single tag. -/
def begins : Token → Bool
  | opening _ => true
  | empty _ => true
  | _ => false

/-- A declaration or a doctype. -/
def isDeclaration : Token → Bool
  | declaration _ => true
  | doctype _ => true
  | _ => false

/-- What makes up a node on its own, and is no element. -/
def isLeaf : Token → Bool
  | characters _ => true
  | comment _ => true
  | cdata _ => true
  | instruction _ => true
  | _ => false

/-- A section of character data. -/
def isSection : Token → Bool
  | cdata _ => true
  | _ => false

/-- Character data that is more than spaces, sections included. -/
def isData : Token → Bool
  | characters raw => !Text.isSpaces raw
  | cdata _ => true
  | _ => false

end Token

/-- **Events that nest**: each start tag is paired with an end tag of its name. -/
inductive Nested : List Event → Prop
  | nil : Nested []
  | leaf {e : Event} {es : List Event} : e.token.isLeaf = true → Nested es → Nested (e :: es)
  | single {e : Event} {es : List Event} {content : Text} :
      e.token = .empty content → Nested es → Nested (e :: es)
  | pair {e last : Event} {inner es : List Event} {content end_ : Text} :
      e.token = .opening content → Nested inner → last.token = .closing end_ →
      tagName content = Builder.closingName end_ → Nested es → Nested (e :: (inner ++ last :: es))

/-- **The events of one element.** -/
inductive OneElement : List Event → Prop
  | single {e : Event} {content : Text} : e.token = .empty content → OneElement [e]
  | pair {e last : Event} {inner : List Event} {content end_ : Text} :
      e.token = .opening content → Nested inner → last.token = .closing end_ →
      tagName content = Builder.closingName end_ → OneElement (e :: (inner ++ [last]))

/-- **What may stand outside the root element**: comments, instructions, spaces, and a declaration
    as long as no element has begun. -/
def Event.Outside (begun : Bool) (e : Event) : Prop :=
  match e.token with
  | .characters raw => Text.isSpaces raw = true
  | .comment _ | .instruction _ => True
  | .declaration _ | .doctype _ => begun = false
  | .cdata _ | .opening _ | .empty _ | .closing _ => False

/-- **A well-nested document**: one element, and around it what may stand outside. -/
inductive WellNested : List Event → Prop
  | intro {front es back : List Event} : (∀ e ∈ front, e.Outside false) → OneElement es →
      (∀ e ∈ back, e.Outside true) → WellNested (front ++ (es ++ back))

/-! ## Counting tags -/

/-- How many start tags there are. -/
def startTags (es : List Event) : Nat := es.countP (·.token.opens)

/-- How many end tags there are. -/
def endTags (es : List Event) : Nat := es.countP (·.token.closes)

theorem startTags_append (es es' : List Event) :
    startTags (es ++ es') = startTags es + startTags es' := List.countP_append

theorem endTags_append (es es' : List Event) : endTags (es ++ es') = endTags es + endTags es' :=
  List.countP_append

theorem startTags_cons (e : Event) (es : List Event) :
    startTags (e :: es) = startTags es + if e.token.opens then 1 else 0 := List.countP_cons

theorem endTags_cons (e : Event) (es : List Event) :
    endTags (e :: es) = endTags es + if e.token.closes then 1 else 0 := List.countP_cons

/-- An event that is no tag, or a single tag, does not count. -/
theorem Token.uncounted {t : Token} (h : t.isLeaf = true ∨ (∃ content, t = .empty content) ∨
    t.isDeclaration = true) : t.opens = false ∧ t.closes = false := by
  cases t with
  | opening content | closing content =>
    rcases h with h | ⟨_, h⟩ | h <;> cases h
  | _ => exact ⟨rfl, rfl⟩

/-- **An element is open** behind the events: there are more start tags than end tags. -/
def Inside (before : List Event) : Prop := endTags before < startTags before

instance (before : List Event) : Decidable (Inside before) := Nat.decLt _ _

/-- What nests has as many start tags as end tags. -/
theorem Nested.balanced {es : List Event} (h : Nested es) : startTags es = endTags es := by
  induction h with
  | nil => rfl
  | leaf leaf _ ih =>
    obtain ⟨opens, closes⟩ := Token.uncounted (.inl leaf)
    rw [startTags_cons, endTags_cons, opens, closes, ih]
  | single token _ ih =>
    obtain ⟨opens, closes⟩ := Token.uncounted (.inr (.inl ⟨_, token⟩))
    rw [startTags_cons, endTags_cons, opens, closes, ih]
  -- one start tag and one end tag more
  | pair token _ closes _ _ ihi ih =>
    simp only [startTags_cons, endTags_cons, startTags_append, endTags_append, token, closes,
      Token.opens, Token.closes, ihi, ih]
    simp
    omega

/-- **Covered**: from no event on are there more start tags than end tags. -/
def Covered (es : List Event) : Prop := ∀ front back, es = front ++ back → startTags back ≤ endTags back

/-- Covered events one behind the other are covered. -/
theorem Covered.append {es es' : List Event} (h : Covered es) (h' : Covered es') :
    Covered (es ++ es') := by
  intro front back whole
  -- the rest begins in one of the two parts
  rcases List.append_eq_append_iff.1 whole with ⟨middle, rfl, behind⟩ | ⟨middle, rfl, rfl⟩
  · exact h' middle back behind
  · have first := h front middle rfl
    have second := h' [] es' rfl
    rw [startTags_append, endTags_append]
    omega

/-- Events that are no start tags are covered. -/
theorem covered_of_forall {es : List Event} (h : ∀ e ∈ es, e.token.opens = false) : Covered es := by
  intro front back whole
  have none : startTags back = 0 := by
    refine List.countP_eq_zero.2 fun e mem => ?_
    rw [h e (by rw [whole]; exact List.mem_append_right _ mem)]
    exact Bool.false_ne_true
  omega

theorem covered_singleton {e : Event} (h : e.token.opens = false) : Covered [e] := by
  refine covered_of_forall fun e' mem => ?_
  obtain rfl := List.mem_singleton.1 mem
  exact h

/-- What nests is covered: a start tag in it has its end tag in it. -/
theorem Nested.covered {es : List Event} (h : Nested es) : Covered es := by
  induction h with
  | nil => exact covered_of_forall (by simp)
  | leaf leaf _ ih => exact (covered_singleton (Token.uncounted (.inl leaf)).1).append ih
  | single token _ ih =>
    exact (covered_singleton (Token.uncounted (.inr (.inl ⟨_, token⟩))).1).append ih
  | @pair e last inner es content end_ token inside closes same rest ihi ih =>
    intro front back whole
    cases front with
    | nil =>
      -- the whole run is balanced
      have balanced := (Nested.pair token inside closes same rest).balanced
      rw [List.nil_append] at whole
      rw [← whole]
      omega
    | cons e₁ front =>
      obtain ⟨-, whole⟩ := List.cons.inj whole
      have closed : Covered [last] := covered_singleton (by rw [closes]; rfl)
      exact (ihi.append (closed.append ih)) front back whole

/-- Behind a start tag that nothing closes, there are more start tags than end tags. -/
theorem Nested.endTags_lt {o : Event} {inner : List Event} (h : Nested inner)
    (opens : o.token.opens = true) : endTags (o :: inner) < startTags (o :: inner) := by
  have balanced := h.balanced
  have closes : o.token.closes = false := by
    cases token : o.token with
    | closing content => rw [token] at opens; cases opens
    | _ => rfl
  rw [startTags_cons, endTags_cons, opens, closes]
  simp only [if_true, Bool.false_eq_true, if_false]
  omega

/-! ## Faults -/

/-- **An element has begun** among the events. -/
def Begun (before : List Event) : Prop := ∃ e ∈ before, e.token.begins = true

/-- **The innermost open element** began with the event `o`: behind it everything nests. -/
def Innermost (before : List Event) (o : Event) : Prop :=
  ∃ outer inner, before = outer ++ o :: inner ∧ o.token.opens = true ∧ Nested inner

/-- **An event that cannot stand behind the events before it**, with the error that says so. -/
inductive Violation (before : List Event) (e : Event) : Error → Prop
  /-- An end tag has another name than the innermost open element. -/
  | mismatched {o : Event} {content end_ : Text} : Innermost before o → o.token = .opening content →
      e.token = .closing end_ → tagName content ≠ Builder.closingName end_ →
      Violation before e (.mismatched (String.ofList (tagName content))
        (String.ofList (Builder.closingName end_)) (some e.start))
  /-- A second element begins at the top level. -/
  | secondRoot : ¬ Inside before → Begun before → e.token.begins = true →
      Violation before e (.secondRoot (some e.start))
  /-- Character data stands at the top level. -/
  | data : ¬ Inside before → e.token.isData = true →
      Violation before e (.misplaced "text outside the root element" (some e.start))
  /-- A declaration comes when an element has begun. -/
  | declaration : Begun before → e.token.isDeclaration = true →
      Violation before e
        (.misplaced "declaration after the start of the root element" (some e.start))

/-- No event is a violation. -/
def Faultless (es : List Event) : Prop := AtEach (fun before e => ∀ fault, ¬ Violation before e fault) es

/-- **What is missing at the end**: the end tag of the innermost open element, or any element. -/
inductive Missing (es : List Event) : Error → Prop
  | endTag {o : Event} {content : Text} : Innermost es o → o.token = .opening content →
      Missing es (.unfinished s!"closing tag </{String.ofList (tagName content)}>" (some o.start))
  | element : ¬ Begun es → Missing es .noRoot

/-- **The first fault** of a run of events: the first violation, or what is missing at its end. -/
inductive FirstFault (es : List Event) (fault : Error) : Prop
  | within {before after : List Event} {e : Event} : es = before ++ e :: after → Faultless before →
      Violation before e fault → FirstFault es fault
  | atEnd : Faultless es → Missing es fault → FirstFault es fault

/-! ## Texts that can be read -/

/-- The attributes of a tag can be read, and the references in character data. -/
def Event.Readable (e : Event) : Prop :=
  match e.token with
  | .opening content | .empty content => ∃ as, attributes content = .ok as
  | .characters raw => ∃ value, resolve raw = .ok value
  | _ => True

/-- **A reading without faults of its own**: all markup ends, attributes and references can be read, and
    no end tag comes when every start tag has its own. -/
structure Reading.Sound (r : Reading) : Prop where
  complete : r.misread = none
  readable : ∀ e ∈ r.events, e.Readable
  matched : AtEach (fun before e => e.token.closes = true → Inside before) r.events

/-- **Sections stand in elements.** -/
def SectionsInside (es : List Event) : Prop :=
  AtEach (fun before e => e.token.isSection = true → Inside before) es

instance (es : List Event) : Decidable (SectionsInside es) := by
  unfold SectionsInside
  infer_instance

/-- **There is one innermost open element.**  If there were two, the second would be among the
    events that nest behind the first, and have its end tag there. -/
theorem Innermost.unique {es : List Event} {o o' : Event} (h : Innermost es o) (h' : Innermost es o') :
    o = o' := by
  -- a start tag behind another one would have to have its end tag
  have apart {outer inner inner' : List Event} {o o' : Event} (nested : Nested inner)
      (nested' : Nested inner') (opens : o'.token.opens = true)
      (whole : o :: inner = outer ++ o' :: inner') : o = o' := by
    cases outer with
    | nil => exact (List.cons.inj whole).1
    | cons e outer =>
      obtain ⟨-, whole⟩ := List.cons.inj whole
      have fewer := nested.covered outer (o' :: inner') whole
      have more := nested'.endTags_lt opens
      omega
  obtain ⟨outer, inner, whole, opens, nested⟩ := h
  obtain ⟨outer', inner', whole', opens', nested'⟩ := h'
  rw [whole] at whole'
  rcases List.append_eq_append_iff.1 whole' with ⟨middle, -, behind⟩ | ⟨middle, -, behind⟩
  · exact apart nested nested' opens' behind
  · exact (apart nested' nested opens behind).symm

/-! ## What nests makes up nodes -/

/-- A tag that was read has the name that its content begins with, and its event as origin. -/
theorem name_of_tagOf {e : Event} {content : Text} {tag : Tag} (h : Builder.tagOf e content = .ok tag) :
    tag.name = tagName content ∧ tag.origin = some ⟨e.position, e.excerpt, none⟩ := by
  have shape := (of_tagOf h).2
  rw [shape]
  exact ⟨rfl, rfl⟩

/-- **Events that make up nodes nest**, since the builder compares the names of the tags. -/
theorem Content.nested {es : List Event} {ns : List Node} (h : Content es ns) : Nested es := by
  induction h with
  | nil => exact .nil
  | text token _ _ ih => exact .leaf (by rw [token]; rfl) ih
  | comment token _ ih => exact .leaf (by rw [token]; rfl) ih
  | @other e es ns token _ ih =>
    refine .leaf ?_ ih
    cases shape : e.token with
    | cdata body | instruction body => rfl
    | _ => rw [shape] at token; cases token
  | single token _ _ ih => exact .single token ih
  | pair token tagged _ closes same _ ihi ih =>
    refine .pair token ihi closes ?_ ih
    rw [← (name_of_tagOf tagged).1]
    exact same

/-- The tag of an element whose attributes can be read. -/
theorem exists_tagOf {e : Event} {content : Text} (h : ∃ as, attributes content = .ok as) :
    ∃ tag, Builder.tagOf e content = .ok tag := by
  obtain ⟨as, read⟩ := h
  exact ⟨_, tagOf_eq_ok read⟩

/-- **Events that nest make up nodes**, when they can be read.  With `Content.nested` this says
    that the grammar of nesting leaves out only what can be read, and that is asked apart. -/
theorem Nested.content {es : List Event} (h : Nested es) :
    (∀ e ∈ es, e.Readable) → ∃ ns, Content es ns := by
  induction h with
  | nil => exact fun _ => ⟨[], .nil⟩
  | @leaf e es leaf _ ih =>
    intro readable
    rw [List.forall_mem_cons] at readable
    obtain ⟨own, rest⟩ := readable
    obtain ⟨ns, content⟩ := ih rest
    cases token : e.token with
    | characters raw =>
      rw [Event.Readable, token] at own
      obtain ⟨value, resolved⟩ := own
      exact ⟨_, .text token resolved content⟩
    | comment body => exact ⟨_, .comment token content⟩
    | cdata body | instruction body => exact ⟨_, .other (by rw [token]; rfl) content⟩
    | _ => rw [token] at leaf; cases leaf
  | @single e es c token _ ih =>
    intro readable
    rw [List.forall_mem_cons] at readable
    obtain ⟨own, rest⟩ := readable
    obtain ⟨ns, content⟩ := ih rest
    rw [Event.Readable, token] at own
    obtain ⟨tag, tagged⟩ := exists_tagOf (e := e) own
    exact ⟨_, .single token tagged content⟩
  | @pair e last inner es c end_ token _ closes same _ ihi ih =>
    intro readable
    rw [List.forall_mem_cons, List.forall_mem_append, List.forall_mem_cons] at readable
    obtain ⟨own, inside, -, rest⟩ := readable
    obtain ⟨children, content⟩ := ihi inside
    obtain ⟨ns, more⟩ := ih rest
    rw [Event.Readable, token] at own
    obtain ⟨tag, tagged⟩ := exists_tagOf (e := e) own
    -- the names agree, for the name of a tag is read from its content
    have named : tag.name = Builder.closingName end_ := by rw [(name_of_tagOf tagged).1, same]
    exact ⟨_, .pair token tagged content closes named more⟩

/-- **The events of one element** make up that element, when they can be read. -/
theorem OneElement.content {es : List Event} (h : OneElement es) (readable : ∀ e ∈ es, e.Readable) :
    ∃ root : Element, Content es [root.toNode] := by
  cases h with
  | @single e c token =>
    have own := readable e (List.mem_singleton_self e)
    rw [Event.Readable, token] at own
    obtain ⟨tag, tagged⟩ := exists_tagOf (e := e) own
    exact ⟨⟨tag, []⟩, .single token tagged .nil⟩
  | @pair e last inner c end_ token inside closes same =>
    rw [List.forall_mem_cons, List.forall_mem_append] at readable
    obtain ⟨own, within, -⟩ := readable
    obtain ⟨children, content⟩ := inside.content within
    rw [Event.Readable, token] at own
    obtain ⟨tag, tagged⟩ := exists_tagOf (e := e) own
    have named : tag.name = Builder.closingName end_ := by rw [(name_of_tagOf tagged).1, same]
    exact ⟨⟨tag.closedBy last.excerpt, children⟩, .pair token tagged content closes named .nil⟩

/-- What makes up one element is one element. -/
theorem Content.oneElement {es : List Event} {root : Element} (h : Content es [root.toNode]) :
    OneElement es := by
  obtain ⟨tag, children⟩ := root
  rw [Element.toNode] at h
  cases h with
  | single token _ nothing =>
    obtain rfl := nothing.eq_nil
    exact .single token
  | pair token tagged inside closes same nothing =>
    obtain rfl := nothing.eq_nil
    refine .pair token inside.nested closes ?_
    rw [← (name_of_tagOf tagged).1]
    exact same

/-! ## What a builder knows -/

/-- What stands around the root element is no tag. -/
theorem Event.Around.no_tag {begun : Bool} {e : Event} (h : e.Around begun) :
    e.token.opens = false ∧ e.token.closes = false ∧ e.token.begins = false := by
  rw [Event.Around] at h
  cases token : e.token with
  | opening content | empty content | closing content => rw [token] at h; cases h
  | _ => exact ⟨rfl, rfl, rfl⟩

/-- Around the root element there are no tags to count. -/
theorem counts_of_around {begun : Bool} {es : List Event} (h : ∀ e ∈ es, e.Around begun) :
    startTags es = 0 ∧ endTags es = 0 := by
  constructor
  · refine List.countP_eq_zero.2 fun e mem => ?_
    rw [(h e mem).no_tag.1]
    exact Bool.false_ne_true
  · refine List.countP_eq_zero.2 fun e mem => ?_
    rw [(h e mem).no_tag.2.1]
    exact Bool.false_ne_true

theorem not_begun_of_around {begun : Bool} {es : List Event} (h : ∀ e ∈ es, e.Around begun) :
    ¬ Begun es := by
  rintro ⟨e, mem, begins⟩
  rw [(h e mem).no_tag.2.2] at begins
  cases begins

theorem OneElement.begun {es : List Event} (h : OneElement es) : Begun es := by
  cases h with
  | single token => exact ⟨_, List.mem_cons_self, by rw [token]; rfl⟩
  | pair token _ _ _ => exact ⟨_, List.mem_cons_self, by rw [token]; rfl⟩

namespace Builder

/-- **There are as many open elements as start tags without end tags**: the contents between them
    are balanced. -/
theorem Stack.count {es : List Event} {stack : List OpenElement} (h : Stack es stack) :
    startTags es = endTags es + stack.length := by
  induction h with
  | nil => rfl
  | cons _ token _ inner ih =>
    -- what stands behind the start tag of an open element is complete
    have balanced := inner.nested.balanced
    simp only [startTags_append, endTags_append, startTags_cons, endTags_cons, token, Token.opens,
      Token.closes, List.length_cons, balanced, ih]
    simp
    omega

/-- **An element is open** in the builder exactly when one is open behind the events. -/
theorem Fits.inside_iff {es : List Event} {b : Builder} (h : Fits es b) :
    Inside es ↔ b.openElements ≠ [] := by
  rw [Inside]
  -- before the root element and behind it the tags are balanced; inside it the stack is the
  -- difference
  cases h with
  | before around =>
    obtain ⟨starts, ends⟩ := counts_of_around around
    simp [starts, ends]
  | inside around stack =>
    obtain ⟨starts, ends⟩ := counts_of_around around
    have count := stack.count
    rw [List.length_cons] at count
    rw [startTags_append, endTags_append]
    simp
    omega
  | after around content around' =>
    obtain ⟨starts, ends⟩ := counts_of_around around
    obtain ⟨starts', ends'⟩ := counts_of_around around'
    have balanced := content.nested.balanced
    simp only [startTags_append, endTags_append]
    simp
    omega

/-- **The root element has begun** in the builder exactly when an element begins among the events.
    -/
theorem Fits.begun_iff {es : List Event} {b : Builder} (h : Fits es b) :
    Begun es ↔ b.begun = true := by
  cases h with
  | before around => exact iff_of_false (not_begun_of_around around) Bool.false_ne_true
  | @inside front es parent outer around stack =>
    refine iff_of_true ?_ rfl
    cases stack with
    | @cons es₀ inner outer e content tag reversed _ token =>
      exact ⟨e, by simp, by rw [token]; rfl⟩
  | @after front es back root around content =>
    refine iff_of_true ?_ rfl
    obtain ⟨e, mem, begins⟩ := content.oneElement.begun
    exact ⟨e, by simp [mem], begins⟩

/-- **The innermost open element** of the builder is the one of the events, with its name and its
    place. -/
theorem Fits.innermost {es : List Event} {b : Builder} {inner : OpenElement}
    {outer : List OpenElement} (h : Fits es b) (stack : b.openElements = inner :: outer) :
    ∃ o content, Innermost es o ∧ o.token = .opening content ∧ inner.tag.name = tagName content ∧
      inner.start = o.start := by
  cases h with
  | before _ => cases stack
  | after _ _ _ => cases stack
  | inside around below =>
    obtain ⟨rfl, rfl⟩ := List.cons.inj stack
    cases below with
    | @cons es₀ events _ o content tag reversed _ token tagged inside =>
      obtain ⟨name, origin⟩ := name_of_tagOf tagged
      refine ⟨o, content, ⟨_, events, (List.append_assoc _ _ _).symm, by rw [token]; rfl,
        inside.nested⟩, token, name, ?_⟩
      simp only [OpenElement.start, origin, Origin.range]
      rfl

/-- Without an open element, the events are covered. -/
theorem Fits.covered {es : List Event} {b : Builder} (h : Fits es b) (none : b.openElements = []) :
    Covered es := by
  have covered_around {begun : Bool} {es : List Event} (around : ∀ e ∈ es, e.Around begun) :
      Covered es := covered_of_forall fun e mem => (around e mem).no_tag.1
  cases h with
  | before around => exact covered_around around
  | inside _ _ => cases none
  | after around content around' =>
    exact ((covered_around around).append content.nested.covered).append (covered_around around')

/-- Where an element is innermost, one is open. -/
theorem Fits.open_of_innermost {es : List Event} {b : Builder} {o : Event} (h : Fits es b)
    (innermost : Innermost es o) : b.openElements ≠ [] := by
  intro none
  obtain ⟨outer, inner, whole, opens, nested⟩ := innermost
  have covered := h.covered none outer (o :: inner) whole
  have more := nested.endTags_lt opens
  omega

/-- While an element is open, there is no root element yet. -/
theorem Fits.root_of_open {es : List Event} {b : Builder} (h : Fits es b)
    (some : b.openElements ≠ []) : b.root = none := by
  cases h with
  | before _ | inside _ _ => rfl
  | after _ _ _ => exact absurd rfl some

end Builder

/-! ## One event -/

/-- **An event that can be judged**: it says what the source says at its place and can be read, its
    end tag is not one too many, and it is no section outside the root element. -/
structure Event.Judged (before : List Event) (e : Event) : Prop where
  excerpt : e.excerpt.text = e.token.written
  readable : e.Readable
  matched : e.token.closes = true → Inside before
  section_ : e.token.isSection = true → Inside before

namespace Builder

/-- **A violation ends the reading**, with the error that belongs to it.  By cases on the
    violation, each of which the builder tests for in one place. -/
theorem step_of_violation {es : List Event} {b : Builder} {e : Event} {fault : Error}
    (h : Fits es b) (judged : e.Judged es) (violation : Violation es e fault) :
    b.step e = .error fault := by
  cases violation with
  | @mismatched o content end_ innermost opening closing differ =>
    obtain ⟨inner, outer, stack⟩ := List.exists_cons_of_ne_nil (h.open_of_innermost innermost)
    -- the element on the stack is the one that the events leave open
    obtain ⟨o', content', innermost', opening', name, -⟩ := h.innermost stack
    obtain rfl := innermost.unique innermost'
    rw [opening] at opening'
    obtain rfl := Token.opening.inj opening'
    simp only [step, closing, closeElement, stack, name]
    rw [if_neg differ]
  | secondRoot outside begun begins =>
    have empty : b.openElements = [] := by rwa [h.inside_iff, not_not] at outside
    have root : b.root.isSome = true := by
      rw [h.begun_iff, Builder.begun, empty] at begun
      exact begun
    obtain ⟨root, isRoot⟩ := Option.isSome_iff_exists.1 root
    cases token : e.token with
    | opening content =>
      simp only [step, token, openElement, empty, isRoot]
      rfl
    | empty content =>
      have readable := judged.readable
      rw [Event.Readable, token] at readable
      obtain ⟨tag, tagged⟩ := exists_tagOf (e := e) readable
      rw [step_empty token tagged]
      -- a single tag is complete at once, and finds the place of the root taken
      simp only [attach, empty, isRoot]
    | _ =>
      rw [token] at begins
      cases begins
  | data outside data =>
    have empty : b.openElements = [] := by rwa [h.inside_iff, not_not] at outside
    cases token : e.token with
    | characters raw =>
      have readable := judged.readable
      rw [Event.Readable, token] at readable
      obtain ⟨value, resolved⟩ := readable
      rw [token, Token.isData] at data
      have text : e.excerpt.text = raw := by rw [judged.excerpt, token, Token.written]
      simp only [step, token, addText, resolved, empty, text, data]
      rfl
    | cdata body => exact absurd (judged.section_ (by rw [token]; rfl)) outside
    | _ =>
      rw [token] at data
      cases data
  | declaration begun declaration =>
    rw [h.begun_iff] at begun
    cases token : e.token with
    | declaration body | doctype body =>
      simp only [step, token, Builder.declaration, begun]
      rfl
    | _ =>
      rw [token] at declaration
      cases declaration

/-- **What ends the reading is a violation.**  By cases on the token; where the builder refuses
    one, it has found what the violation says. -/
theorem violation_of_step {es : List Event} {b : Builder} {e : Event} {fault : Error}
    (h : Fits es b) (judged : e.Judged es) (refused : b.step e = .error fault) :
    Violation es e fault := by
  have readable := judged.readable
  have outside_of_empty (empty : b.openElements = []) : ¬ Inside es := by
    rw [h.inside_iff]
    exact fun some => some empty
  cases token : e.token with
  | characters raw =>
    rw [Event.Readable, token] at readable
    obtain ⟨value, resolved⟩ := readable
    have text : e.excerpt.text = raw := by rw [judged.excerpt, token, Token.written]
    simp only [step, token, addText, resolved, text] at refused
    -- character data outside the root element is refused unless it is spaces
    split at refused
    · next fits =>
      rw [Bool.and_eq_true, List.isEmpty_iff] at fits
      obtain rfl := Except.error.inj refused
      exact .data (outside_of_empty fits.1) (by rw [token]; exact fits.2)
    · cases refused
  | comment body | cdata body | instruction body =>
    simp only [step, token] at refused
    cases refused
  | declaration body | doctype body =>
    simp only [step, token, Builder.declaration] at refused
    split at refused
    · next begun =>
      obtain rfl := Except.error.inj refused
      exact .declaration (h.begun_iff.2 begun) (by rw [token]; rfl)
    · cases refused
  | opening content =>
    rw [Event.Readable, token] at readable
    obtain ⟨tag, tagged⟩ := exists_tagOf (e := e) readable
    simp only [step, token, openElement, tagged] at refused
    split at refused
    · next second =>
      rw [Bool.and_eq_true, List.isEmpty_iff] at second
      obtain rfl := Except.error.inj refused
      refine .secondRoot (outside_of_empty second.1) (h.begun_iff.2 ?_) (by rw [token]; rfl)
      rw [Builder.begun, second.2, Bool.or_true]
    · cases refused
  | empty content =>
    rw [Event.Readable, token] at readable
    obtain ⟨tag, tagged⟩ := exists_tagOf (e := e) readable
    rw [step_empty token tagged, attach] at refused
    split at refused
    · cases refused
    · next empty =>
      split at refused
      · next root second =>
        obtain rfl := Except.error.inj refused
        refine .secondRoot (outside_of_empty empty) (h.begun_iff.2 ?_) (by rw [token]; rfl)
        rw [Builder.begun, second, Option.isSome_some, Bool.or_true]
      · cases refused
  | closing end_ =>
    have inside := judged.matched (by rw [token]; rfl)
    rw [h.inside_iff] at inside
    have no_root := h.root_of_open inside
    obtain ⟨inner, outer, stack⟩ := List.exists_cons_of_ne_nil inside
    obtain ⟨o, content, innermost, opening, name, -⟩ := h.innermost stack
    simp only [step, token, closeElement, stack] at refused
    split at refused
    · next same =>
      -- a complete element finds its place: a parent, or that of the root
      simp only [attach, no_root] at refused
      cases outer with
      | nil | cons => cases refused
    · next differ =>
      obtain rfl := Except.error.inj refused
      rw [name] at differ ⊢
      exact .mismatched innermost opening token differ

/-! ## A run -/

/-- **Without a violation, all events are read.**  By induction on the end of the run, since a
    violation is one behind the events before it. -/
theorem exists_fits {es : List Event} (judged : AtEach (fun before e => e.Judged before) es)
    (faultless : Faultless es) : ∃ b, es.foldlM step start = .ok b ∧ Fits es b := by
  induction es using List.reverseRecOn with
  | nil => exact ⟨start, rfl, .before (List.forall_mem_nil _)⟩
  | append_singleton es e ih =>
    rw [atEach_concat] at judged
    rw [Faultless, atEach_concat] at faultless
    obtain ⟨b, built, fits⟩ := ih judged.1 faultless.1
    -- a refusal would be a violation
    cases one : b.step e with
    | error fault => exact absurd (violation_of_step fits judged.2 one) (faultless.2 fault)
    | ok b' =>
      refine ⟨b', ?_, fits.step one⟩
      rw [List.foldlM_append, built]
      show [e].foldlM step b = _
      rw [List.foldlM_cons, one]
      rfl

/-- **The first violation ends the reading**: the events before it are read. -/
theorem foldlM_of_violation {before after : List Event} {e : Event} {fault : Error}
    (judged : AtEach (fun before e => e.Judged before) (before ++ e :: after))
    (faultless : Faultless before) (violation : Violation before e fault) :
    (before ++ e :: after).foldlM step start = .error fault := by
  obtain ⟨b, built, fits⟩ := exists_fits judged.front faultless
  rw [List.foldlM_append, built]
  show (e :: after).foldlM step b = _
  rw [List.foldlM_cons, step_of_violation fits (judged before e after rfl) violation]
  rfl

/-- **What a builder says at the end of the text** is what is missing there. -/
theorem Fits.finish_iff {es : List Event} {b : Builder} (h : Fits es b) (fault : Error) :
    b.finish = .error fault ↔ Missing es fault := by
  constructor
  · intro refused
    cases stack : b.openElements with
    | cons inner outer =>
      obtain ⟨o, content, innermost, opening, name, start⟩ := h.innermost stack
      simp only [finish, stack, name, start] at refused
      obtain rfl := Except.error.inj refused
      exact .endTag innermost opening
    | nil =>
      cases root : b.root with
      | some root =>
        simp only [finish, stack, root] at refused
        cases refused
      | none =>
        simp only [finish, stack, root] at refused
        obtain rfl := Except.error.inj refused
        refine .element fun begun => ?_
        rw [h.begun_iff, Builder.begun, stack, root] at begun
        cases begun
  · intro missing
    cases missing with
    | endTag innermost opening =>
      obtain ⟨inner, outer, stack⟩ := List.exists_cons_of_ne_nil (h.open_of_innermost innermost)
      obtain ⟨o', content', innermost', opening', name, start⟩ := h.innermost stack
      obtain rfl := innermost.unique innermost'
      rw [opening] at opening'
      obtain rfl := Token.opening.inj opening'
      simp only [finish, stack, name, start]
    | element nothing =>
      rw [h.begun_iff, Builder.begun, Bool.or_eq_true, not_or] at nothing
      obtain ⟨empty, none⟩ := nothing
      rw [Bool.not_eq_true, Bool.not_eq_false', List.isEmpty_iff] at empty
      rw [Bool.not_eq_true, Option.isSome_eq_false_iff, Option.isNone_iff_eq_none] at none
      simp only [finish, empty, none]

end Builder

/-- **Events without a violation, or a first one**: going from the front, the first event that is
    one. -/
theorem faultless_or_exists (es : List Event) : Faultless es ∨
    ∃ before e after fault, es = before ++ e :: after ∧ Faultless before ∧ Violation before e fault := by
  induction es using List.reverseRecOn with
  | nil => exact .inl atEach_nil
  | append_singleton es e ih =>
    rcases ih with faultless | ⟨before, e', after, fault, rfl, faultless, violation⟩
    · -- the new event is the first violation, or there is still none
      by_cases more : ∃ fault, Violation es e fault
      · obtain ⟨fault, violation⟩ := more
        exact .inr ⟨es, e, [], fault, rfl, faultless, violation⟩
      · exact .inl (atEach_concat.2 ⟨faultless, not_exists.1 more⟩)
    · refine .inr ⟨before, e', after ++ [e], fault, ?_, faultless, violation⟩
      rw [List.append_assoc, List.cons_append]

/-- **What the builder says is the first fault**, of an event or of the end of the text.  There is
    one run, so that whatever it says first is all that it says. -/
theorem Builder.refused_iff {es : List Event} (judged : AtEach (fun before e => e.Judged before) es)
    (fault : Error) :
    (es.foldlM step start = .error fault ∨
      ∃ b, es.foldlM step start = .ok b ∧ b.finish = .error fault) ↔ FirstFault es fault := by
  rcases faultless_or_exists es with faultless | ⟨before, e, after, fault', rfl, faultless, violation⟩
  · -- every event is read, and only the end can be at fault
    obtain ⟨b, built, fits⟩ := exists_fits judged faultless
    constructor
    · rintro (refused | ⟨b', built', refused⟩)
      · rw [built] at refused
        cases refused
      · obtain rfl := Except.ok.inj (built.symm.trans built')
        exact .atEnd faultless ((fits.finish_iff fault).1 refused)
    · intro first
      cases first with
      | @within before after e whole _ violation =>
        exact absurd violation (faultless before e after whole fault)
      | atEnd _ missing => exact .inr ⟨b, built, (fits.finish_iff fault).2 missing⟩
  · have refused := foldlM_of_violation judged faultless violation
    constructor
    · rintro (refused' | ⟨b, built, -⟩)
      · obtain rfl := Except.error.inj (refused.symm.trans refused')
        exact .within rfl faultless violation
      · rw [refused] at built
        cases built
    · intro first
      cases first with
      | @within before' after' e' whole' faultless' violation' =>
        left
        rw [whole'] at judged ⊢
        exact foldlM_of_violation judged faultless' violation'
      | atEnd none _ => exact absurd violation (none before e after rfl fault')

/-! ## Parsing -/

theorem Tiles.excerpt_text {o : Nat} {es : List Event} (h : Tiles o es) :
    ∀ e ∈ es, e.excerpt.text = e.token.written := by
  induction es generalizing o with
  | nil => exact List.forall_mem_nil _
  | cons e es ih =>
    obtain ⟨excerpt, -, tiles⟩ := h
    exact List.forall_mem_cons.2 ⟨congrArg Excerpt.text excerpt, ih tiles⟩

/-- **The events of a text can be judged**, when it is read without faults and its sections stand
    in elements. -/
theorem Reading.Sound.judged {text : Text} (one : AtMostOneMark text)
    (sound : (Reading.ofSource (Source.ofText text)).Sound)
    (sections : SectionsInside (Reading.ofSource (Source.ofText text)).events) :
    AtEach (fun before e => e.Judged before) (Reading.ofSource (Source.ofText text)).events := by
  intro before e after whole
  have mem : e ∈ (Reading.ofSource (Source.ofText text)).events := by
    rw [whole]
    exact List.mem_append_right _ List.mem_cons_self
  refine ⟨?_, sound.readable e mem, sound.matched before e after whole,
    sections before e after whole⟩
  obtain ⟨mark, body, rfl, isMark, unmarked⟩ := one.split
  rw [(ofSource_append isMark unmarked).1] at mem
  exact (tiles_placed _ _ _).excerpt_text e mem

/-- What may stand outside the root element stands around it, when it can be read. -/
theorem Event.Outside.around {begun : Bool} {e : Event} (h : e.Outside begun) (readable : e.Readable)
    (excerpt : e.excerpt.text = e.token.written) : e.Around begun := by
  rw [Event.Around, excerpt]
  rw [Event.Outside] at h
  rw [Event.Readable] at readable
  cases token : e.token with
  | characters raw =>
    rw [token] at h readable
    exact ⟨readable, h⟩
  | cdata body =>
    rw [token] at h
    exact h.elim
  | _ =>
    rw [token] at h
    exact h

/-- What stands around the root element may stand outside it, unless it is a section. -/
theorem Event.Around.outside {begun : Bool} {e : Event} (h : e.Around begun)
    (excerpt : e.excerpt.text = e.token.written) (no_section : e.token.isSection ≠ true) :
    e.Outside begun := by
  rw [Event.Around, excerpt] at h
  rw [Event.Outside]
  cases token : e.token with
  | characters raw =>
    rw [token] at h
    exact h.2
  | cdata body => exact absurd (by rw [token]; rfl) no_section
  | _ =>
    rw [token] at h
    exact h

/-- **A builder that is done has read a well-nested document.**  The invariant gives the three
    parts; that there is no section in the outer ones is because no element is open there. -/
theorem wellNested_of_fits {es : List Event} {root : Element}
    (judged : AtEach (fun before e => e.Judged before) es)
    (h : Builder.Fits es ⟨[], some root⟩) : WellNested es := by
  -- where no element is open there are no sections
  have outside {begun : Bool} (before : List Event) {e : Event} (after : List Event)
      (whole : es = before ++ e :: after) (around : e.Around begun) (closed : ¬ Inside before) :
      e.Outside begun := by
    have own := judged before e after whole
    exact around.outside own.excerpt fun section_ => closed (own.section_ section_)
  generalize hes : es = es' at h
  cases h with
  | @after front inner back _ around content around' =>
    rw [List.append_assoc]
    refine .intro (fun e mem => ?_) content.oneElement fun e mem => ?_
    · obtain ⟨before, after, rfl⟩ := List.append_of_mem mem
      refine outside before (after ++ (inner ++ back)) ?_ (around e mem) ?_
      · rw [hes]
        simp
      · obtain ⟨starts, -⟩ := counts_of_around fun e' m => around e' (List.mem_append_left _ m)
        rw [Inside]
        omega
    · obtain ⟨before, after, rfl⟩ := List.append_of_mem mem
      refine outside (front ++ inner ++ before) after ?_ (around' e mem) ?_
      · rw [hes]
        simp
      · obtain ⟨starts, -⟩ := counts_of_around around
        obtain ⟨starts', -⟩ := counts_of_around fun e' m => around' e' (List.mem_append_left _ m)
        have balanced := content.nested.balanced
        simp only [Inside, startTags_append, endTags_append]
        omega

/-- **A well-nested document is read**, when it can be: its front and back add nothing, and the
    element between them is the root. -/
theorem WellNested.built {es : List Event} (h : WellNested es)
    (judged : AtEach (fun before e => e.Judged before) es) :
    ∃ root, es.foldlM Builder.step Builder.start = .ok ⟨[], some root⟩ := by
  cases h with
  | @intro front es back outside element outside' =>
    have own (e : Event) (mem : e ∈ front ++ (es ++ back)) :
        e.Readable ∧ e.excerpt.text = e.token.written := by
      obtain ⟨before, after, whole⟩ := List.append_of_mem mem
      have judged := judged before e after whole
      exact ⟨judged.readable, judged.excerpt⟩
    simp only [List.forall_mem_append] at own
    obtain ⟨own_front, own_es, own_back⟩ := own
    obtain ⟨root, content⟩ := element.content fun e mem => (own_es e mem).1
    -- the frame is passed over, and the element between becomes the root
    refine ⟨root, Builder.foldlM_framed (fun e mem => ?_) content fun e mem => ?_⟩
    · exact (outside e mem).around (own_front e mem).1 (own_front e mem).2
    · exact (outside' e mem).around (own_back e mem).1 (own_back e mem).2

namespace Document

/-- The errors of parsing are those of the events and that of the end of the text. -/
theorem parse_error_iff {text : Text} {fault : Error}
    (complete : (Reading.ofSource (Source.ofText text)).misread = none) :
    parse text = .error fault ↔
      (Reading.ofSource (Source.ofText text)).events.foldlM Builder.step Builder.start = .error fault ∨
      ∃ b, (Reading.ofSource (Source.ofText text)).events.foldlM Builder.step Builder.start = .ok b ∧
        b.finish = .error fault := by
  unfold parse
  cases built : (Reading.ofSource (Source.ofText text)).events.foldlM Builder.step Builder.start with
  | error fault' => simp [built, bind, Except.bind]
  | ok b =>
    -- all events were read, and the end of the text is judged last
    cases finished : b.finish with
    | error fault' => simp [built, bind, Except.bind, complete, finished]
    | ok root => simp [built, bind, Except.bind, complete, finished, pure, Except.pure]

/-- **Parsing accepts exactly the well-nested documents**, and otherwise says what the first fault
    is, for a text that can be read and whose sections stand in elements. -/
theorem parse_iff {text : Text} (one : AtMostOneMark text)
    (sound : (Reading.ofSource (Source.ofText text)).Sound)
    (sections : SectionsInside (Reading.ofSource (Source.ofText text)).events) :
    ((∃ d, parse text = .ok d) ↔ WellNested (Reading.ofSource (Source.ofText text)).events) ∧
      ∀ fault, parse text = .error fault ↔
        FirstFault (Reading.ofSource (Source.ofText text)).events fault := by
  have judged := sound.judged one sections
  have complete := sound.complete
  constructor
  · constructor
    · rintro ⟨d, parsed⟩
      obtain ⟨root, built, -⟩ := built_of_parse parsed
      have fits := Builder.Fits.run (.before (List.forall_mem_nil _)) built
      exact wellNested_of_fits judged fits
    · intro nested
      obtain ⟨root, built⟩ := nested.built judged
      exact ⟨_, parse_of_built built complete⟩
  · intro fault
    rw [parse_error_iff complete]
    exact Builder.refused_iff judged fault

end Document

/-! ### A second root element -/

namespace SecondRoot

/-- A declaration, a root element with a section in it, and one element more. -/
def text : Text := "<?xml version='1.0'?><a k='1'><![CDATA[x]]>&amp;</a><b/>".toList

/-- What is read. -/
def events : List Event :=
  placed 0 .first [.declaration "xml version='1.0'".toList, .opening "a k='1'".toList, .cdata ['x'],
    .characters "&amp;".toList, .closing ['a'], .empty ['b']]

theorem ofSource_text : Reading.ofSource (Source.ofText text) = ⟨events, none⟩ := by with_unfolding_all rfl

theorem sound_text : (Reading.ofSource (Source.ofText text)).Sound := by
  rw [ofSource_text]
  refine ⟨rfl, ?_, ?_⟩
  · simp only [events, placed, List.forall_mem_cons]
    exact ⟨trivial, ⟨[⟨['k'], ['1']⟩], by with_unfolding_all rfl⟩, trivial, ⟨['&'], by with_unfolding_all rfl⟩, trivial, ⟨[], by with_unfolding_all rfl⟩,
      List.forall_mem_nil _⟩
  · decide

theorem sectionsInside_text : SectionsInside (Reading.ofSource (Source.ofText text)).events := by
  rw [ofSource_text]
  decide

end SecondRoot

/-- The second root element is the first fault of the text, which is no document. -/
theorem parse_iff_secondRoot :
    AtMostOneMark SecondRoot.text ∧ (Reading.ofSource (Source.ofText SecondRoot.text)).Sound ∧
    SectionsInside (Reading.ofSource (Source.ofText SecondRoot.text)).events ∧
    Document.parse SecondRoot.text = .error (.secondRoot (some 52)) ∧
    FirstFault (Reading.ofSource (Source.ofText SecondRoot.text)).events (.secondRoot (some 52)) ∧
    ¬ WellNested (Reading.ofSource (Source.ofText SecondRoot.text)).events := by
  have one : AtMostOneMark SecondRoot.text := by decide
  have refused : Document.parse SecondRoot.text = .error (.secondRoot (some 52)) := by with_unfolding_all rfl
  obtain ⟨accepted, faults⟩ :=
    Document.parse_iff one SecondRoot.sound_text SecondRoot.sectionsInside_text
  refine ⟨one, SecondRoot.sound_text, SecondRoot.sectionsInside_text, refused,
    (faults _).1 refused, fun nested => ?_⟩
  obtain ⟨d, parsed⟩ := accepted.2 nested
  rw [refused] at parsed
  cases parsed

/-! ### A section outside the root element -/

/-- The last event of a well-nested document is no section. -/
theorem WellNested.last {es : List Event} {e : Event} (h : WellNested (es ++ [e])) :
    e.token.isSection = false := by
  generalize whole : es ++ [e] = all at h
  cases h with
  | @intro front inner back _ element outside =>
    rcases List.eq_nil_or_concat back with rfl | ⟨back, last, rfl⟩
    · -- the last event is a tag of the root element
      rw [List.append_nil] at whole
      cases element with
      | single token =>
        obtain ⟨-, same⟩ := List.append_inj' whole rfl
        rw [List.singleton_inj.1 same, token]
        rfl
      | pair _ _ closes _ =>
        rw [← List.cons_append, ← List.append_assoc] at whole
        obtain ⟨-, same⟩ := List.append_inj' whole rfl
        rw [List.singleton_inj.1 same, closes]
        rfl
    · rw [List.concat_eq_append, ← List.append_assoc, ← List.append_assoc] at whole
      obtain ⟨-, same⟩ := List.append_inj' whole rfl
      obtain rfl := List.singleton_inj.1 same
      have last := outside e (by simp)
      rw [Event.Outside] at last
      cases token : e.token with
      | cdata body =>
        rw [token] at last
        exact last.elim
      | _ => rfl

namespace SectionOutside

/-- A section behind the root element. -/
def text : Text := "<a/><![CDATA[x]]>".toList

/-- The root element. -/
def element : Event := ⟨.empty ['a'], ⟨⟨0, 4⟩, "<a/>".toList⟩, some .first⟩

/-- The section. -/
def section_ : Event := ⟨.cdata ['x'], ⟨⟨4, 17⟩, "<![CDATA[x]]>".toList⟩, some ⟨1, 5⟩⟩

theorem ofSource_text : Reading.ofSource (Source.ofText text) = ⟨[element, section_], none⟩ := by with_unfolding_all rfl

theorem sound_text : (Reading.ofSource (Source.ofText text)).Sound := by
  rw [ofSource_text]
  refine ⟨rfl, ?_, ?_⟩
  · simp only [List.forall_mem_cons]
    exact ⟨⟨[], by with_unfolding_all rfl⟩, trivial, List.forall_mem_nil _⟩
  · decide

/-- Nothing is wrong with the root element. -/
theorem faultless_element : Faultless [element] := by
  rw [Faultless, atEach_cons]
  refine ⟨fun fault violation => ?_, atEach_nil⟩
  cases violation with
  | mismatched _ _ closing _ => cases closing
  | secondRoot _ begun _ =>
    obtain ⟨e, mem, -⟩ := begun
    cases mem
  | data _ data => cases data
  | declaration _ declaration => cases declaration

end SectionOutside

/-- **A section outside the root element** is a fault, and the text is read all the same. -/
theorem not_parse_iff_sectionOutside :
    AtMostOneMark SectionOutside.text ∧
    (Reading.ofSource (Source.ofText SectionOutside.text)).Sound ∧
    (∃ d, Document.parse SectionOutside.text = .ok d ∧ d.epilog = "<![CDATA[x]]>".toList) ∧
    ¬ WellNested (Reading.ofSource (Source.ofText SectionOutside.text)).events ∧
    FirstFault (Reading.ofSource (Source.ofText SectionOutside.text)).events
      (.misplaced "text outside the root element" (some 4)) := by
  refine ⟨by decide, SectionOutside.sound_text, ?_, fun nested => ?_, ?_⟩
  · exact ⟨⟨Source.ofText SectionOutside.text, [], ⟨⟨['a'], [], some ⟨some .first,
      ⟨⟨0, 4⟩, "<a/>".toList⟩, none⟩, false, false⟩, []⟩, "<![CDATA[x]]>".toList⟩, by with_unfolding_all rfl, rfl⟩
  · rw [SectionOutside.ofSource_text] at nested
    have whole : WellNested ([SectionOutside.element] ++ [SectionOutside.section_]) := nested
    exact absurd whole.last (by decide)
  · rw [SectionOutside.ofSource_text]
    have split : [SectionOutside.element, SectionOutside.section_]
        = [SectionOutside.element] ++ SectionOutside.section_ :: [] := rfl
    exact .within split SectionOutside.faultless_element (.data (by decide) rfl)

end XmlGraft.Markup
