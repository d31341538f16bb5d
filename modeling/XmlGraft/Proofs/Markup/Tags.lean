/-
  Tags — what a tag is written as is read back as the tag.

  A tag remembers the text that it was read from, and it is written as that text until its name or
  its attributes change; then it is generated.  Whichever way it is written, reading it again has to
  give the name and the attributes that the tag has now.  `Tag.Sound` says so of the three texts
  that can be written of a tag, and the modules behind this one ask no more of tags.

  1. **Quotes** (`tagEnd?_eq_length_iff`): a content ends where its tag ends when no `>` stands
     outside quotes in it and no quote is left open.  `quoteAfter` gives the open quote as a
     function of the text, so that contents can be put together from pieces (`quoteAfter_append`).

  2. **Soundness** (`Tag.Sound`): the three ways a tag can be written, as a single tag, as a start
     tag and as an end tag, are tokens that say its name and its attributes.

  3. **Tags built from plain names** (`Tag.Named.sound`) are sound: their content is generated, and
     the attributes are read back from it.

  4. **Tags that were read** (`Tag.sound_of_empty`, `Tag.sound_of_pair`) are sound by what the
     reader has checked.  The hard one is a single tag that gets content: it is written as a start
     tag, for which the slash and the spaces before it are cut off, and it has to say the same
     without them.

  5. **Tags that changed** (`Tag.Sound.changed`): the start is generated, the end stays as it was.
-/
import XmlGraft.Markup.Document
import XmlGraft.Proofs.Markup.Attributes
import XmlGraft.Proofs.Markup.Lexeme

namespace XmlGraft.Markup

/-! ## Quotes -/

/-- The quote that is open behind a text, where `q` was open before it.  There is no answer when
    a `>` stands outside quotes. -/
def quoteAfter : Option Char → Text → Option (Option Char)
  | q, [] => some q
  | none, c :: t =>
    if c = '>' then none else quoteAfter (if c = '"' ∨ c = '\'' then some c else none) t
  | some q, c :: t => quoteAfter (if c = q then none else some q) t

/-- A tag ends behind its content exactly when the content has no `>` outside quotes and leaves
    none open.  The two recursions go by the same characters and the same open quote. -/
theorem tagEnd?_eq_length_iff {q : Option Char} {t : Text} :
    tagEnd? q (t ++ ['>']) = some t.length ↔ quoteAfter q t = some none := by
  induction t generalizing q with
  | nil => cases q <;> simp [tagEnd?, quoteAfter]
  | cons c t ih =>
    -- outside quotes a bracket ends the tag; inside, every character but the quote is passed
    cases q with
    | none =>
      rw [List.cons_append, tagEnd?, quoteAfter]
      split
      · simp
      · rw [List.length_cons, Option.map_eq_some_iff, ← ih]
        simp
    | some q =>
      rw [List.cons_append, tagEnd?, quoteAfter, List.length_cons, Option.map_eq_some_iff, ← ih]
      simp

/-- The quote that is open behind two texts: the one behind the second, from the one behind the
    first. -/
theorem quoteAfter_append (q : Option Char) (s t : Text) :
    quoteAfter q (s ++ t) = (quoteAfter q s).bind (quoteAfter · t) := by
  induction s generalizing q with
  | nil => simp [quoteAfter]
  | cons c s ih =>
    cases q with
    | none =>
      rw [List.cons_append, quoteAfter, quoteAfter]
      split
      · rfl
      · exact ih _
    | some q => rw [List.cons_append, quoteAfter, quoteAfter, ih]

/-- Text without quotes opens none. -/
theorem quoteAfter_none_of_plain {t : Text} (h : ∀ c ∈ t, c ≠ '>' ∧ c ≠ '"' ∧ c ≠ '\'') :
    quoteAfter none t = some none := by
  induction t with
  | nil => rfl
  | cons c t ih =>
    obtain ⟨h1, h2, h3⟩ := h c List.mem_cons_self
    rw [quoteAfter, if_neg h1, if_neg (by simp [h2, h3])]
    exact ih fun d hd => h d (List.mem_cons_of_mem _ hd)

/-- Text without the quote that is open leaves it open. -/
theorem quoteAfter_some_of_ne {q : Char} {t : Text} (h : ∀ c ∈ t, c ≠ q) :
    quoteAfter (some q) t = some (some q) := by
  induction t with
  | nil => rfl
  | cons c t ih =>
    rw [quoteAfter, if_neg (h c List.mem_cons_self)]
    exact ih fun d hd => h d (List.mem_cons_of_mem _ hd)

/-- Only a quote is ever open, so that text without quotes cannot close what is open. -/
theorem isQuote_of_quoteAfter {t : Text} {q : Char} :
    ∀ {q₀ : Option Char}, (∀ c, q₀ = some c → c = '"' ∨ c = '\'') →
      quoteAfter q₀ t = some (some q) → q = '"' ∨ q = '\'' := by
  induction t with
  | nil =>
    intro q₀ h₀ h
    exact h₀ q (Option.some.inj h)
  | cons c t ih =>
    intro q₀ h₀ h
    cases q₀ with
    | none =>
      rw [quoteAfter] at h
      split at h
      · cases h
      · refine ih ?_ h
        intro d hd
        split at hd
        · next hc => cases hd; exact hc
        · cases hd
    | some q₁ =>
      rw [quoteAfter] at h
      refine ih ?_ h
      intro d hd
      split at hd
      · cases hd
      · exact h₀ d hd

/-- What stands between a text and its end, if it holds no quote, closes none: so none was open. -/
theorem quoteAfter_of_append {t s : Text} (plain : ∀ c ∈ s, c ≠ '>' ∧ c ≠ '"' ∧ c ≠ '\'')
    (h : quoteAfter none (t ++ s) = some none) : quoteAfter none t = some none := by
  rw [quoteAfter_append] at h
  obtain ⟨q, hq, hs⟩ := Option.bind_eq_some_iff.1 h
  cases q with
  | none => exact hq
  | some q =>
    have quote := isQuote_of_quoteAfter (by simp) hq
    have still : quoteAfter (some q) s = some (some q) := by
      refine quoteAfter_some_of_ne fun c hc => ?_
      obtain ⟨-, h2, h3⟩ := plain c hc
      rcases quote with rfl | rfl
      · exact h2
      · exact h3
    rw [still] at hs
    cases hs

/-! ## Contents -/

/-- A plain character neither ends a tag nor opens a quote. -/
theorem PlainChar.no_quote {c : Char} (h : PlainChar c) : c ≠ '>' ∧ c ≠ '"' ∧ c ≠ '\'' := by
  refine ⟨?_, ?_, ?_⟩ <;>
    · rintro rfl
      exact h.no_mark (by decide)

/-- The first character of a content that begins with a plain name begins a tag, and no other
    markup. -/
theorem PlainName.begins {name : Text} (h : PlainName name) (t : Text) :
    ∀ c s, name ++ t = c :: s → c ≠ '!' ∧ c ≠ '?' ∧ c ≠ '/' := by
  intro c s e
  cases name with
  | nil => exact absurd rfl h.ne_nil
  | cons d name =>
    obtain ⟨rfl, -⟩ := List.cons.inj e
    have plain := h.plain d List.mem_cons_self
    refine ⟨?_, ?_, ?_⟩ <;>
      · rintro rfl
        exact plain.no_mark (by decide)

/-- The last character of a name, or the quote behind the last attribute: neither a slash nor a
    space, so that nothing of a content is taken for the end of a single tag. -/
theorem exists_last {name body : Text} (plain : PlainName name)
    (ends : body = [] ∨ EndsInQuote body) :
    ∃ c, (name ++ body).getLast? = some c ∧ c ≠ '/' ∧ Text.isSpace c = false := by
  -- without attributes the name is last, which is plain
  rcases ends with rfl | ⟨front, q, rfl, quote⟩
  · have last := List.getLast?_eq_some_getLast plain.ne_nil
    have := plain.plain _ (List.getLast_mem plain.ne_nil)
    refine ⟨name.getLast plain.ne_nil, by rw [List.append_nil]; exact last, fun e => ?_, this.no_space⟩
    rw [e] at this
    exact this.no_mark (by decide)
  · refine ⟨q, by simp, ?_, ?_⟩
    · rcases quote with rfl | rfl <;> decide
    · rcases quote with rfl | rfl <;> rfl

/-- A start tag is a lexeme when its content is a plain name with attributes behind it. -/
theorem lexeme_opening_of_name {name body : Text} (plain : PlainName name)
    (ends : body = [] ∨ EndsInQuote body) (closed : quoteAfter none (name ++ body) = some none) :
    Lexeme (.opening (name ++ body)) := by
  obtain ⟨c, last, slash, -⟩ := exists_last plain ends
  refine lexeme_opening (tagEnd?_eq_length_iff.2 closed) ?_ ?_
  · rw [last]
    exact fun e => slash (Option.some.inj e)
  · rw [List.append_assoc]
    exact plain.begins _

/-- A single tag is a lexeme when its content is a plain name with attributes behind it. -/
theorem lexeme_empty_of_name {name body : Text} (plain : PlainName name)
    (closed : quoteAfter none (name ++ body) = some none) : Lexeme (.empty (name ++ body)) := by
  refine lexeme_empty (tagEnd?_eq_length_iff.2 ?_) ?_
  · rw [quoteAfter_append, closed]
    rfl
  · rw [List.append_assoc]
    exact plain.begins _

/-- A single tag leaves no quote open: it was read up to its own `>`, which stood outside quotes. -/
theorem quoteAfter_of_lexeme_empty {content : Text}
    (starts : ∀ c t, content = c :: t → c ≠ '!' ∧ c ≠ '?' ∧ c ≠ '/') (some_text : content ≠ [])
    (h : Lexeme (.empty content)) : quoteAfter none content = some none := by
  have read := h []
  rw [Token.written, List.append_nil, List.append_assoc, List.cons_append, List.nil_append,
    next_tag] at read
  · unfold nextOpening at read
    split at read
    · next i hi =>
      obtain ⟨token, -⟩ := Prod.mk.inj (Except.ok.inj read)
      have le := le_length_of_tagEnd? hi
      split at token
      · next slash =>
        -- the tag ends where the content and its slash do, with no quote open there
        have same := congrArg List.length (Token.empty.inj token)
        -- the content is not empty, so that the slash in front of the end is not its first
        -- character
        have pos : 0 < (List.take i (content ++ ['/', '>'])).length := by
          rw [List.length_pos_iff]
          intro nothing
          rw [nothing] at slash
          cases slash
        rw [List.length_dropLast, List.length_take, Nat.min_eq_left le] at same
        rw [List.length_take, Nat.min_eq_left le] at pos
        have length : i = (content ++ ['/']).length := by
          rw [List.length_append, List.length_cons, List.length_nil]
          omega
        rw [length, show content ++ ['/', '>'] = content ++ ['/'] ++ ['>'] by simp] at hi
        have plain : ∀ c ∈ ['/'], c ≠ '>' ∧ c ≠ '"' ∧ c ≠ '\'' := by
          intro c hc
          rw [List.mem_singleton.1 hc]
          decide
        exact quoteAfter_of_append plain (tagEnd?_eq_length_iff.1 hi)
      · cases token
    · cases read
  · intro c t e
    cases content with
    | nil => exact absurd rfl some_text
    | cons d content =>
      obtain ⟨rfl, -⟩ := List.cons.inj e
      exact starts d content rfl

/-! ## Tags -/

namespace Tag

/-- **The content of a tag says what the tag says.** -/
structure ReadFrom (t : Tag) (content : Text) : Prop where
  name : tagName content = t.name
  attributes : Markup.attributes content = .ok t.attributes

/-- **Sound tag**: each of its written forms is a token that says what the tag says. -/
structure Sound (t : Tag) : Prop where
  single : t.isSingle = true → ∃ content, Lexeme (.empty content) ∧
    t.single = (Token.empty content).written ∧ t.ReadFrom content
  opening : ∃ content, Lexeme (.opening content) ∧
    t.opening = (Token.opening content).written ∧ t.ReadFrom content
  closing : ∃ content, Lexeme (.closing content) ∧
    t.closing = (Token.closing content).written ∧ Builder.closingName content = t.name

/-- **Named tag**: plain names, and no attribute twice. -/
structure Named (t : Tag) : Prop where
  name : PlainName t.name
  keys : ∀ a ∈ t.attributes, PlainName a.name
  distinct : (t.attributes.map (·.name)).Nodup

/-- The flag of the content does not count for what a tag is written as. -/
theorem Sound.flagged {t : Tag} (h : t.Sound) (b : Bool) : { t with contentChanged := b }.Sound where
  single whole := by
    obtain ⟨content, lexeme, written, read⟩ := h.single whole
    exact ⟨content, lexeme, written, read.name, read.attributes⟩
  opening := by
    obtain ⟨content, lexeme, written, read⟩ := h.opening
    exact ⟨content, lexeme, written, read.name, read.attributes⟩
  closing := h.closing

theorem Named.flagged {t : Tag} (h : t.Named) (b : Bool) : { t with contentChanged := b }.Named :=
  ⟨h.name, h.keys, h.distinct⟩

/-- A tag without what it remembers of its source. -/
def bare (t : Tag) : Tag := ⟨t.name, t.attributes, none, false, false⟩

@[simp] theorem bare_bare (t : Tag) : t.bare.bare = t.bare := rfl

theorem Named.bare {t : Tag} (h : t.Named) : t.bare.Named := ⟨h.name, h.keys, h.distinct⟩

/-- What stands between the brackets of a generated tag. -/
def generatedContent (t : Tag) : Text :=
  t.name ++ t.attributes.flatMap fun a => ' ' :: a.written

theorem generatedStart_eq (t : Tag) : t.generatedStart = '<' :: t.generatedContent := rfl

end Tag

/-- A plain name ends where white space begins. -/
theorem tagName_append {name body : Text} (plain : PlainName name)
    (starts : ∀ c t, body = c :: t → isTagSpace c = true) : tagName (name ++ body) = name := by
  have all : ∀ c ∈ name, (!isTagSpace c) = true := fun c hc => by
    rw [(plain.plain c hc).no_tagSpace]
    rfl
  cases body with
  | nil =>
    rw [List.append_nil, tagName, List.takeWhile_eq_self_iff]
    exact all
  | cons c t =>
    refine takeWhile_append_stop all ?_ t
    rw [starts c t rfl]
    rfl

/-- The attributes are read from what stands behind the name. -/
theorem attributes_append {name body : Text} (plain : PlainName name)
    (starts : ∀ c t, body = c :: t → isTagSpace c = true) :
    attributes (name ++ body) = attributesFrom (name ++ body).size [] name.size body := by
  rw [attributes, tagName_append plain starts, List.drop_left]

/-- The quotes of a written attribute are closed: one opens behind the `=`, the escaped value does
    not hold it, and the last character closes it. -/
theorem quoteAfter_written {a : Attribute} (plain : PlainName a.name) :
    quoteAfter none (' ' :: a.written) = some none := by
  have key : quoteAfter none (' ' :: a.name ++ ['=']) = some none := by
    refine quoteAfter_none_of_plain fun c hc => ?_
    rw [List.cons_append, List.mem_cons, List.mem_append, List.mem_singleton] at hc
    rcases hc with rfl | hc | rfl
    · decide
    · exact (plain.plain c hc).no_quote
    · decide
  have value : quoteAfter (some '"') (escapeValue a.value) = some (some '"') :=
    quoteAfter_some_of_ne (quote_not_mem_escapeValue a.value)
  have whole : ' ' :: a.written = ' ' :: a.name ++ ['='] ++ ('"' :: escapeValue a.value ++ ['"']) := by
    simp [Attribute.written]
  rw [whole, quoteAfter_append, key, Option.bind_some, List.cons_append, quoteAfter]
  simp [quoteAfter_append, value, quoteAfter]

/-- The quotes of written attributes are closed, one attribute behind the other. -/
theorem quoteAfter_attributes {as : List Attribute} (plain : ∀ a ∈ as, PlainName a.name) :
    quoteAfter none (as.flatMap fun a => ' ' :: a.written) = some none := by
  induction as with
  | nil => rfl
  | cons a as ih =>
    rw [List.flatMap_cons, quoteAfter_append, quoteAfter_written (plain a List.mem_cons_self)]
    exact ih fun b hb => plain b (List.mem_cons_of_mem _ hb)

/-- Written attributes end in a quote, if there are any. -/
theorem endsInQuote_attributes (as : List Attribute) :
    (as.flatMap fun a => ' ' :: a.written) = [] ∨
      EndsInQuote (as.flatMap fun a => ' ' :: a.written) := by
  rcases List.eq_nil_or_concat as with rfl | ⟨front, a, rfl⟩
  · exact .inl rfl
  · refine .inr ⟨front.flatMap (fun a => ' ' :: a.written) ++
      ' ' :: a.name ++ ['=', '"'] ++ escapeValue a.value, '"', ?_, .inl rfl⟩
    simp [Attribute.written]

/-- Written attributes begin with a space, if there are any. -/
theorem isTagSpace_attributes (as : List Attribute) :
    ∀ c t, (as.flatMap fun a => ' ' :: a.written) = c :: t → isTagSpace c = true := by
  intro c t e
  cases as with
  | nil => cases e
  | cons a as =>
    obtain ⟨rfl, -⟩ := List.cons.inj e
    rfl

namespace Tag

/-- The content that is generated for a tag says what the tag says. -/
theorem Named.readFrom {t : Tag} (h : t.Named) : t.ReadFrom t.generatedContent := by
  have starts := isTagSpace_attributes t.attributes
  refine ⟨tagName_append h.name starts, ?_⟩
  rw [generatedContent, attributes_append h.name starts]
  exact attributesFrom_written h.keys h.distinct _ _ _ (by simp)

/-- The content that is generated for a tag leaves no quote open. -/
theorem Named.quoteAfter {t : Tag} (h : t.Named) :
    Markup.quoteAfter none t.generatedContent = some none := by
  rw [generatedContent, quoteAfter_append,
    quoteAfter_none_of_plain fun c hc => (h.name.plain c hc).no_quote]
  exact quoteAfter_attributes h.keys

/-- The end tag that is generated for a plain name has that name, with no white space to cut off. -/
theorem closing_of_name {name : Text} (plain : PlainName name) :
    Lexeme (.closing name) ∧ Builder.closingName name = name := by
  refine ⟨lexeme_closing (tagEnd?_eq_length_iff.2
    (quoteAfter_none_of_plain fun c hc => (plain.plain c hc).no_quote)), ?_⟩
  rw [Builder.closingName]
  split
  · rfl
  · -- the last character of a plain name is no white space
    rw [List.dropWhile_eq_self_iff.2, List.reverse_reverse]
    intro some_text space
    have last := plain.plain _ (List.mem_reverse.1 (List.getElem_mem some_text))
    rw [last.no_tagSpace] at space
    cases space

/-- **A tag whose start is generated** is sound when its end is.  So the tag may have been built,
    or it may have changed and kept the end tag that it was read with. -/
theorem Named.sound_of_closing {t : Tag} (h : t.Named) (source : t.sourceOpening? = none)
    (closing : ∃ content, Lexeme (.closing content) ∧
      t.closing = (Token.closing content).written ∧ Builder.closingName content = t.name) :
    t.Sound := by
  refine ⟨fun _ => ⟨t.generatedContent, ?_, ?_, h.readFrom⟩, ⟨t.generatedContent, ?_, ?_, h.readFrom⟩,
    closing⟩
  · exact lexeme_empty_of_name h.name h.quoteAfter
  · rw [Tag.single, source, Option.getD_none, generatedStart_eq]
    rfl
  · exact lexeme_opening_of_name h.name (endsInQuote_attributes _) h.quoteAfter
  · rw [Tag.opening, source, generatedStart_eq]
    rfl

/-- **A tag built from plain names is sound**: nothing of it comes from a source. -/
theorem Named.sound {t : Tag} (h : t.Named) (built : t.origin = none) : t.Sound := by
  have source : t.sourceOpening? = none := by
    rw [sourceOpening?, built]
    split <;> rfl
  refine h.sound_of_closing source
    ⟨t.name, (closing_of_name h.name).1, ?_, (closing_of_name h.name).2⟩
  rw [Tag.closing, built]
  rfl

/-- **A start tag that changed** is generated; the end tag stays as it is, and the name with it. -/
theorem Sound.changed {t t' : Tag} (h : t.Sound) (named : t'.Named) (changed : t'.tagChanged = true)
    (origin : t'.origin = t.origin) (name : t'.name = t.name) : t'.Sound := by
  have source : t'.sourceOpening? = none := by
    rw [sourceOpening?, changed]
    rfl
  have closing : t'.closing = t.closing := by rw [Tag.closing, Tag.closing, origin, name]
  refine named.sound_of_closing source ?_
  rw [closing, name]
  exact h.closing

/-- A content is a name, what says the attributes, and white space.  The white space can go. -/
theorem ReadFrom.split {t : Tag} {content : Text} (h : t.ReadFrom content)
    (plain : PlainName t.name) :
    ∃ body space, content = t.name ++ body ++ space ∧ (∀ c ∈ space, isTagSpace c = true) ∧
      (body = [] ∨ EndsInQuote body) ∧ t.ReadFrom (t.name ++ body) := by
  have whole : content = t.name ++ content.dropWhile (!isTagSpace ·) := by
    rw [← h.name]
    exact List.takeWhile_append_dropWhile.symm
  -- the name was read up to the first white space, if there is any
  have starts : ∀ c rest, content.dropWhile (!isTagSpace ·) = c :: rest → isTagSpace c = true := by
    intro c rest e
    have := (eq_of_dropWhile_eq_cons e).1
    simpa using this
  have read := h.attributes
  rw [whole, attributes_append plain starts] at read
  obtain ⟨body, space, e, white, ends, same⟩ := attributesFrom_body read
  have begins : ∀ c rest, body = c :: rest → isTagSpace c = true := by
    rintro c rest rfl
    exact starts c (rest ++ space) e
  refine ⟨body, space, ?_, white, ends, tagName_append plain begins, ?_⟩
  · rw [List.append_assoc, ← e]
    exact whole
  · rw [attributes_append plain begins]
    exact same _

/-- What a single tag is written as without its slash: a `<`, the name and the attributes, since
    what stands before the slash is trimmed too. -/
theorem withoutSlash_written {name body space : Text} (plain : PlainName name)
    (white : ∀ c ∈ space, isTagSpace c = true) (ends : body = [] ∨ EndsInQuote body) :
    withoutSlash (Token.empty (name ++ body ++ space)).written = '<' :: (name ++ body) := by
  obtain ⟨c, last, -, no_space⟩ := exists_last plain ends
  have cut : Text.dropEnd? (Token.empty (name ++ body ++ space)).written ['/', '>']
      = some ('<' :: (name ++ body) ++ space) := by
    rw [Token.written, Text.dropEnd?, if_pos (List.isSuffixOf_iff_suffix.2 (List.suffix_append _ _))]
    rw [List.length_append, Nat.add_sub_cancel, List.take_left]
    simp
  have spaces : Text.isSpaces space = true :=
    Text.isSpaces_iff.2 fun c hc => isSpace_of_isTagSpace (white c hc)
  rw [withoutSlash, cut, Option.getD_some, Text.trimEnd_append_spaces spaces]
  refine Text.trimEnd_eq_self ?_ no_space
  rw [List.getLast?_cons, last]
  rfl

/-- **A tag that was read as a single tag is sound**, also when it gets content.  Then its start
    tag is the single tag without slash and white space, and its end tag is generated. -/
theorem sound_of_empty {t : Tag} {content : Text} {position : Option Position} {opening : Excerpt}
    (lexeme : Lexeme (.empty content)) (read : t.ReadFrom content) (plain : PlainName t.name)
    (unchanged : t.tagChanged = false) (origin : t.origin = some ⟨position, opening, none⟩)
    (said : opening.text = (Token.empty content).written) : t.Sound := by
  have source : t.sourceOpening? = some (Token.empty content).written := by
    rw [sourceOpening?, unchanged, origin, ← said]
    rfl
  have isSingle : t.isSingle = true := by
    rw [Tag.isSingle, origin]
    rfl
  obtain ⟨body, space, rfl, white, ends, short⟩ := read.split plain
  refine ⟨fun _ => ⟨_, lexeme, ?_, read⟩, ⟨t.name ++ body, ?_, ?_, short⟩,
    ⟨t.name, (closing_of_name plain).1, ?_, (closing_of_name plain).2⟩⟩
  · rw [Tag.single, source]
    rfl
  · -- no quote was open before the slash, and none is closed by the white space that was cut off
    refine lexeme_opening_of_name plain ends (quoteAfter_of_append (s := space) (fun c hc => ?_) ?_)
    · have := white c hc
      simp only [isTagSpace, Bool.or_eq_true, beq_iff_eq] at this
      rcases this with ((rfl | rfl) | rfl) | rfl <;> decide
    · refine quoteAfter_of_lexeme_empty ?_ ?_ lexeme
      · rw [List.append_assoc]
        exact plain.begins _
      · simp [plain.ne_nil]
  · rw [Tag.opening, source]
    simp only [isSingle, if_true, withoutSlash_written plain white ends]
    rfl
  · rw [Tag.closing, origin]
    rfl

/-- **Tags that were read around a content are sound**: both are written as they were read, and
    such a tag is never written as a single one. -/
theorem sound_of_pair {t : Tag} {content last : Text} {position : Option Position}
    {opening closing : Excerpt} (lexeme : Lexeme (.opening content)) (read : t.ReadFrom content)
    (lexeme' : Lexeme (.closing last)) (same : Builder.closingName last = t.name)
    (unchanged : t.tagChanged = false) (origin : t.origin = some ⟨position, opening, some closing⟩)
    (said : opening.text = (Token.opening content).written)
    (said' : closing.text = (Token.closing last).written) : t.Sound := by
  have isSingle : t.isSingle = false := by
    rw [Tag.isSingle, origin]
    rfl
  have source : t.sourceOpening? = some (Token.opening content).written := by
    rw [sourceOpening?, unchanged, origin, ← said]
    rfl
  -- it was read with an end tag, so it is not a single tag
  refine ⟨fun single => ?_, ⟨content, lexeme, ?_, read⟩, ⟨last, lexeme', ?_, same⟩⟩
  · rw [isSingle] at single
    cases single
  · rw [Tag.opening, source]
    simp only [isSingle, Bool.false_eq_true, if_false]
  · rw [Tag.closing, origin]
    exact said'

end Tag

end XmlGraft.Markup
