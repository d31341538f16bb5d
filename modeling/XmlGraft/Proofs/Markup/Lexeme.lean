/-
  Lexeme — tokens that are read back from what is written of them.

  The writer puts tokens one behind the other with nothing between them, and the reader has to find
  where each of them ends.  All that is proved about reading what was written rests on this module.

  1. **Lexemes** (`Lexeme`): a piece of markup that is read as the same token whatever comes next.
     Every piece of markup that reading gives is one (`lexeme_of_next`): where a token ends is
     decided by its own characters.
       - For a comment, a section and an instruction that is so because the cut is at the first end
         mark (`cut?_eq_some_iff`).
       - For tags and doctypes the searches keep a state, the open quote or the depth of brackets.
         `tagEnd?_append` and `doctypeEnd?_append` say that the state at the end does not depend on
         what comes behind.
       - Each kind of token has its own lemma, with the condition on its body that reading has
         checked.

  2. **Runs of tokens** (`Lexed`): lexemes, and character data that is not empty, holds no `<` and
     does not stand beside other character data.  Character data is no lexeme, for it ends only at
     the next `<`; that two pieces of it never meet is what lets it be read back all the same.

  3. **Scanning** (`scan_flatMap_written`, `lexed_scan`): the runs of tokens are what scanning
     gives, and each of them is what scanning gives for its written form.
-/
import Mathlib.Data.List.Chain
import XmlGraft.Markup.Token
import XmlGraft.Proofs.Text.Pieces

namespace XmlGraft.Markup

/-- Is the token character data? -/
def Token.isCharacters : Token → Bool
  | characters _ => true
  | _ => false

/-- **Lexeme**: a token that is read from its written form, whatever comes next. -/
def Lexeme (token : Token) : Prop := ∀ rest, next (token.written ++ rest) = .ok (token, rest)

/-- **Character data** as it stands between two pieces of markup. -/
structure Chunk (raw : Text) : Prop where
  ne_nil : raw ≠ []
  plain : ∀ c ∈ raw, c ≠ '<'

/-- A token that reading can give. -/
def Token.WellFormed : Token → Prop
  | .characters raw => Chunk raw
  | token => Lexeme token

/-- Of markup no more is asked than that it is a lexeme. -/
theorem Token.wellFormed_iff {token : Token} (h : token.isCharacters = false) :
    token.WellFormed ↔ Lexeme token := by
  cases token with
  | characters raw => exact absurd h (by simp [isCharacters])
  | _ => exact Iff.rfl

/-- Markup begins with `<`, of any kind. -/
theorem Token.written_eq_cons {token : Token} (h : token.isCharacters = false) :
    ∃ t, token.written = '<' :: t := by
  cases token with
  | characters raw => exact absurd h (by simp [isCharacters])
  | _ => exact ⟨_, rfl⟩

/-- Markup ends in `>`, of any kind. -/
theorem Token.last_written {token : Token} (h : token.isCharacters = false) :
    token.written.getLast? = some '>' := by
  cases token with
  | characters raw => cases h
  | _ => rw [Token.written, List.getLast?_append]; rfl

/-! ## Where markup ends is decided by its own characters -/

/-- The end of a tag is found where it was, when the text behind it is another one.  The quote
    that is open is carried along; inside one, a `>` is no end. -/
theorem tagEnd?_append {q : Option Char} {t : Text} {i : Nat} (h : tagEnd? q t = some i)
    (rest : Text) : tagEnd? q (t.take i ++ '>' :: rest) = some i := by
  induction t generalizing q i with
  | nil => cases q <;> simp [tagEnd?] at h
  | cons c t ih =>
    cases q with
    | none =>
      rw [tagEnd?] at h
      split at h
      · cases h
        simp [tagEnd?]
      · next hc =>
        obtain ⟨j, hj, rfl⟩ := Option.map_eq_some_iff.1 h
        rw [List.take_succ_cons, List.cons_append, tagEnd?, if_neg hc, ih hj]
        rfl
    | some q =>
      rw [tagEnd?] at h
      obtain ⟨j, hj, rfl⟩ := Option.map_eq_some_iff.1 h
      rw [List.take_succ_cons, List.cons_append, tagEnd?, ih hj]
      rfl

/-- The end of a doctype is found where it was, when the text behind it is another one.  The depth
    of brackets is carried along. -/
theorem doctypeEnd?_append {depth : Nat} {t : Text} {i : Nat} (h : doctypeEnd? depth t = some i)
    (rest : Text) : doctypeEnd? depth (t.take i ++ '>' :: rest) = some i := by
  induction t generalizing depth i with
  | nil => simp [doctypeEnd?] at h
  | cons c t ih =>
    rw [doctypeEnd?.eq_def] at h
    simp only at h
    split at h
    · -- a bracket that opens makes it deeper by one
      next hc =>
      obtain ⟨j, hj, rfl⟩ := Option.map_eq_some_iff.1 h
      rw [List.take_succ_cons, List.cons_append, doctypeEnd?.eq_def]
      simp only [if_pos hc, ih hj]
      rfl
    · next hc =>
      split at h
      · next hd =>
        -- a bracket that closes ends the doctype where none is open
        cases depth with
        | zero =>
          cases h
          simp [doctypeEnd?]
        | succ depth =>
          obtain ⟨j, hj, rfl⟩ := Option.map_eq_some_iff.1 h
          rw [List.take_succ_cons, List.cons_append, doctypeEnd?.eq_def]
          simp only [if_neg hc, if_pos hd, ih hj]
          rfl
      · next hd =>
        obtain ⟨j, hj, rfl⟩ := Option.map_eq_some_iff.1 h
        rw [List.take_succ_cons, List.cons_append, doctypeEnd?.eq_def]
        simp only [if_neg hc, if_neg hd, ih hj]
        rfl

theorem le_length_of_tagEnd? {q : Option Char} {t : Text} {i : Nat} (h : tagEnd? q t = some i) :
    i ≤ t.length := by
  have whole := congrArg List.length (eq_of_tagEnd? h)
  simp only [List.length_append, List.length_take, List.length_cons, List.length_drop] at whole
  omega

theorem le_length_of_doctypeEnd? {depth : Nat} {t : Text} {i : Nat}
    (h : doctypeEnd? depth t = some i) : i ≤ t.length := by
  have whole := congrArg List.length (eq_of_doctypeEnd? h)
  simp only [List.length_append, List.length_take, List.length_cons, List.length_drop] at whole
  omega

/-! ## Lexemes -/

/-- **A comment** is a lexeme when its end stands first behind its body. -/
theorem lexeme_comment {body : Text} (h : Text.EndsFirst ['-', '-', '>'] body) :
    Lexeme (.comment body) := by
  intro rest
  have cut : Text.cut? ['-', '-', '>'] (body ++ ['-', '-', '>'] ++ rest) = some (body, rest) :=
    Text.cut?_eq_some_iff.2 ⟨rfl, h⟩
  simp only [Token.written, List.cons_append, List.nil_append, List.append_assoc] at cut ⊢
  simp only [next, nextBang, cut]

/-- The body of a comment holds no end of a comment: with nothing behind it, the first end that is
    found would be another one. -/
theorem endsFirst_of_lexeme {body : Text} (h : Lexeme (.comment body)) :
    Text.EndsFirst ['-', '-', '>'] body := by
  have read := h []
  rw [List.append_nil, Token.written] at read
  simp only [List.cons_append, List.nil_append, next, nextBang] at read
  split at read
  · next body' rest cut =>
    obtain ⟨same, -⟩ := Prod.mk.inj (Except.ok.inj read)
    obtain rfl := Token.comment.inj same
    exact (Text.cut?_eq_some_iff.1 cut).2
  · cases read

/-- A section is a lexeme when its end stands first behind its body, as for a comment. -/
theorem lexeme_cdata {body : Text} (h : Text.EndsFirst [']', ']', '>'] body) :
    Lexeme (.cdata body) := by
  intro rest
  have cut : Text.cut? [']', ']', '>'] (body ++ [']', ']', '>'] ++ rest) = some (body, rest) :=
    Text.cut?_eq_some_iff.2 ⟨rfl, h⟩
  simp only [Token.written, List.cons_append, List.nil_append, List.append_assoc] at cut ⊢
  simp only [next, nextBang, cut]

/-- A doctype is a lexeme when the first `>` that closes no `<` of its own is its last character,
    it begins with the word in any case, and something is named behind the word. -/
theorem lexeme_doctype {c : Char} {t : Text} {i : Nat} (doctype : c = 'D' ∨ c = 'd')
    (ends : doctypeEnd? 0 (c :: t) = some i) (begins : beginsDoctype ((c :: t).take i) = true)
    (named : ¬ (((c :: t).take i).drop 7).all isTagSpace = true) :
    Lexeme (.doctype ((c :: t).take i)) := by
  intro rest
  have here := doctypeEnd?_append ends rest
  have le := le_length_of_doctypeEnd? ends
  cases i with
  | zero => exact absurd begins (by rw [List.take_zero]; decide)
  | succ i =>
    rw [List.take_succ_cons] at here begins named ⊢
    have no_dash : c ≠ '-' := by rcases doctype with rfl | rfl <;> decide
    have no_bracket : c ≠ '[' := by rcases doctype with rfl | rfl <;> decide
    simp only [Token.written, List.cons_append, List.nil_append, List.append_assoc] at here ⊢
    simp only [next]
    -- the other markup that begins with `<!` begins with a dash or a bracket
    unfold nextBang
    split
    · next e => exact absurd (List.cons.inj e).1 no_dash
    · next e => exact absurd (List.cons.inj e).1 no_dash
    · next e => exact absurd (List.cons.inj e).1 no_bracket
    · next e => exact absurd (List.cons.inj e).1 no_bracket
    · next c' t' _ _ _ _ e =>
      obtain ⟨rfl, rfl⟩ := List.cons.inj e
      have len : (t.take i).length = i := by
        rw [List.length_take, Nat.min_eq_left (Nat.le_of_succ_le_succ le)]
      -- behind the `>` that was found, what comes next is left over
      have front : (c :: (t.take i ++ '>' :: rest)).take (i + 1) = c :: t.take i := by
        rw [List.take_succ_cons, List.take_left' len]
      have back : (c :: (t.take i ++ '>' :: rest)).drop (i + 1 + 1) = rest := by
        rw [List.drop_succ_cons, ← List.drop_drop, List.drop_left' len]
        rfl
      rw [if_pos doctype, here]
      simp only [front, back, begins, Bool.not_true, Bool.false_eq_true, if_false, named]
    · next e => simp at e

/-- An instruction is read from its written form when its end stands first behind its body.
    Whether it is a declaration is decided by its body. -/
theorem next_instruction {body : Text} (h : Text.EndsFirst ['?', '>'] body)
    (starts : ∀ t, body ≠ '>' :: t) (rest : Text) :
    next (['<', '?'] ++ body ++ ['?', '>'] ++ rest)
      = .ok (if declares body then .declaration body else .instruction body, rest) := by
  have cut : Text.cut? ['?', '>'] (body ++ ['?', '>'] ++ rest) = some (body, rest) :=
    Text.cut?_eq_some_iff.2 ⟨rfl, h⟩
  simp only [List.cons_append, List.nil_append, List.append_assoc] at cut ⊢
  simp only [next]
  unfold nextInstruction
  split
  · next t e =>
    cases body with
    | nil => simp at e
    | cons c body =>
      obtain ⟨rfl, -⟩ := List.cons.inj e
      exact absurd rfl (starts body)
  · rw [cut]

/-- A `<` that is followed by no mark of other markup begins a tag. -/
theorem next_tag {t : Text} (starts : ∀ c s, t = c :: s → c ≠ '!' ∧ c ≠ '?' ∧ c ≠ '/') :
    next ('<' :: t) = nextOpening t := by
  cases t with
  | nil => rfl
  | cons c s =>
    obtain ⟨h1, h2, h3⟩ := starts c s rfl
    unfold next
    split
    · next e => exact absurd (List.cons.inj (List.cons.inj e).2).1 h1
    · next e => exact absurd (List.cons.inj (List.cons.inj e).2).1 h2
    · next e => exact absurd (List.cons.inj (List.cons.inj e).2).1 h3
    · next e => rw [(List.cons.inj e).2]
    · next h => exact absurd rfl (h _)

/-- A tag is read from its written form when the first `>` outside quotes is its last character.
    The slash in front of it decides which of the two tags it is. -/
theorem nextOpening_append {content : Text}
    (ends : tagEnd? none (content ++ ['>']) = some content.length) (rest : Text) :
    nextOpening (content ++ '>' :: rest)
      = .ok (if content.getLast? = some '/' then .empty content.dropLast else .opening content,
        rest) := by
  have here := tagEnd?_append ends rest
  rw [List.take_left] at here
  unfold nextOpening
  rw [here]
  simp [List.drop_append]

/-- **A start tag** is a lexeme when the first `>` outside quotes is its last character. -/
theorem lexeme_opening {content : Text}
    (ends : tagEnd? none (content ++ ['>']) = some content.length)
    (slash : content.getLast? ≠ some '/')
    (starts : ∀ c t, content ++ ['>'] = c :: t → c ≠ '!' ∧ c ≠ '?' ∧ c ≠ '/') :
    Lexeme (.opening content) := by
  intro rest
  have read := nextOpening_append ends rest
  rw [if_neg slash] at read
  simp only [Token.written, List.cons_append, List.nil_append, List.append_assoc]
  rw [next_tag, read]
  intro c t e
  cases content with
  | nil => exact starts c [] (by rw [← (List.cons.inj e).1]; rfl)
  | cons c' t' => exact starts c (t' ++ ['>']) (by rw [← (List.cons.inj e).1]; rfl)

/-- **A single tag** is a lexeme when the first `>` outside quotes is its last character. -/
theorem lexeme_empty {content : Text}
    (ends : tagEnd? none (content ++ ['/'] ++ ['>']) = some (content ++ ['/']).length)
    (starts : ∀ c t, content ++ ['/'] = c :: t → c ≠ '!' ∧ c ≠ '?' ∧ c ≠ '/') :
    Lexeme (.empty content) := by
  intro rest
  have read := nextOpening_append ends rest
  rw [if_pos (by simp), List.dropLast_concat] at read
  simp only [Token.written, List.cons_append, List.nil_append, List.append_assoc] at read ⊢
  rw [next_tag, read]
  intro c t e
  cases content with
  | nil => exact starts c [] (by rw [← (List.cons.inj e).1]; rfl)
  | cons c' t' => exact starts c (t' ++ ['/']) (by rw [← (List.cons.inj e).1]; rfl)

/-- **An end tag** is a lexeme when the first `>` outside quotes is its last character. -/
theorem lexeme_closing {content : Text}
    (ends : tagEnd? none (content ++ ['>']) = some content.length) : Lexeme (.closing content) := by
  intro rest
  have here := tagEnd?_append ends rest
  rw [List.take_left] at here
  simp only [Token.written, List.cons_append, List.nil_append, List.append_assoc]
  simp only [next, nextClosing, here, List.take_left]
  simp [List.drop_append]

/-! ## What reading gives is a lexeme -/

/-- What is read behind `<!` is a lexeme: a comment, a section or a doctype. -/
theorem lexeme_of_nextBang {t rest : Text} {token : Token} (h : nextBang t = .ok (token, rest)) :
    Lexeme token ∧ token.isCharacters = false := by
  unfold nextBang at h
  split at h
  · split at h
    · next body after hc =>
      obtain ⟨rfl, -⟩ := Prod.mk.inj (Except.ok.inj h)
      exact ⟨lexeme_comment (Text.cut?_eq_some_iff.1 hc).2, rfl⟩
    · simp [notClosed] at h
  · simp [notClosed] at h
  · split at h
    · next body after hc =>
      obtain ⟨rfl, -⟩ := Prod.mk.inj (Except.ok.inj h)
      exact ⟨lexeme_cdata (Text.cut?_eq_some_iff.1 hc).2, rfl⟩
    · simp [notClosed] at h
  · simp [notClosed] at h
  · next c t h1 h2 h3 h4 =>
    split at h
    · next doctype =>
      split at h
      · simp [notClosed] at h
      · next i hi =>
        simp only at h
        split at h
        · simp [notClosed] at h
        · next begins =>
          split at h
          · simp at h
          · next named =>
            obtain ⟨rfl, -⟩ := Prod.mk.inj (Except.ok.inj h)
            exact ⟨lexeme_doctype doctype hi (by simpa using begins) named, rfl⟩
    · simp at h
  · simp at h

/-- What is read behind `<?` is a lexeme. -/
theorem lexeme_of_nextInstruction {t rest : Text} {token : Token}
    (h : nextInstruction t = .ok (token, rest)) :
    Lexeme token ∧ token.isCharacters = false := by
  unfold nextInstruction at h
  split at h
  · simp [notClosed] at h
  · next starts =>
    split at h
    · next body after hc =>
      obtain ⟨rfl, -⟩ := Prod.mk.inj (Except.ok.inj h)
      obtain ⟨whole, first⟩ := Text.cut?_eq_some_iff.1 hc
      have read := next_instruction first fun s e => starts (s ++ ['?', '>'] ++ after) (by
        rw [whole, e]
        rfl)
      by_cases decl : declares body = true
      · rw [if_pos decl] at read ⊢
        exact ⟨read, rfl⟩
      · rw [if_neg decl] at read ⊢
        exact ⟨read, rfl⟩
    · simp [notClosed] at h

/-- What is read behind `</` is a lexeme. -/
theorem lexeme_of_nextClosing {t rest : Text} {token : Token}
    (h : nextClosing t = .ok (token, rest)) :
    Lexeme token ∧ token.isCharacters = false := by
  unfold nextClosing at h
  split at h
  · next i hi =>
    obtain ⟨rfl, -⟩ := Prod.mk.inj (Except.ok.inj h)
    have ends := tagEnd?_append hi []
    refine ⟨lexeme_closing ?_, rfl⟩
    rw [ends, List.length_take, Nat.min_eq_left (le_length_of_tagEnd? hi)]
  · simp [notClosed] at h

/-- What is read behind any other `<` is a lexeme: a start tag, or a single tag when a slash was
    last. -/
theorem lexeme_of_nextOpening {t rest : Text} {token : Token}
    (starts : ∀ c s, t = c :: s → c ≠ '!' ∧ c ≠ '?' ∧ c ≠ '/')
    (h : nextOpening t = .ok (token, rest)) : Lexeme token ∧ token.isCharacters = false := by
  unfold nextOpening at h
  split at h
  · next i hi =>
    obtain ⟨rfl, -⟩ := Prod.mk.inj (Except.ok.inj h)
    have len : (t.take i).length = i := by
      rw [List.length_take, Nat.min_eq_left (le_length_of_tagEnd? hi)]
    have ends : tagEnd? none (t.take i ++ ['>']) = some (t.take i).length := by
      rw [len]
      exact tagEnd?_append hi []
    -- the content is a front of the text, so it begins as the text does, or with the `>` itself
    have begins : ∀ c s, t.take i ++ ['>'] = c :: s → c ≠ '!' ∧ c ≠ '?' ∧ c ≠ '/' := by
      intro c s e
      cases t with
      | nil =>
        rw [List.take_nil] at e
        obtain ⟨rfl, -⟩ := List.cons.inj e
        decide
      | cons c' t' =>
        cases i with
        | zero =>
          obtain ⟨rfl, -⟩ := List.cons.inj e
          decide
        | succ i => exact (List.cons.inj e).1 ▸ starts c' t' rfl
    split
    · next slash =>
      obtain ⟨front, hfront⟩ := List.getLast?_eq_some_iff.1 slash
      rw [hfront] at ends begins ⊢
      rw [List.dropLast_concat]
      refine ⟨lexeme_empty ends fun c s e => begins c (s ++ ['>']) ?_, rfl⟩
      rw [e]
      rfl
    · next slash => exact ⟨lexeme_opening ends slash begins, rfl⟩
  · simp [notClosed] at h

/-- Markup that is read is a lexeme, by what stands behind its `<`. -/
theorem lexeme_of_next {t rest : Text} {token : Token} (h : next ('<' :: t) = .ok (token, rest)) :
    Lexeme token ∧ token.isCharacters = false := by
  unfold next at h
  split at h
  · exact lexeme_of_nextBang h
  · exact lexeme_of_nextInstruction h
  · exact lexeme_of_nextClosing h
  · next t' no_bang no_mark no_slash e =>
    refine lexeme_of_nextOpening (fun c s shape => ⟨?_, ?_, ?_⟩) h
    · rintro rfl
      exact no_bang s shape
    · rintro rfl
      exact no_mark s shape
    · rintro rfl
      exact no_slash s shape
  · next no_tag => exact absurd rfl (no_tag t)

/-- Text that does not begin with `<` begins with character data up to the next `<`. -/
theorem next_of_ne {c : Char} (h : c ≠ '<') (t : Text) :
    next (c :: t)
      = .ok (.characters (c :: t.takeWhile (· != '<')), t.dropWhile (· != '<')) := by
  unfold next
  split
  · next e => exact absurd (List.cons.inj e).1 h
  · next e => exact absurd (List.cons.inj e).1 h
  · next e => exact absurd (List.cons.inj e).1 h
  · next e => exact absurd (List.cons.inj e).1 h
  · simp [h]

/-- **What reading gives is read again**, whatever comes next; and behind character data comes
    markup, if anything, since it was taken up to the next `<`. -/
theorem wellFormed_of_next {t rest : Text} {token : Token} (some_text : t ≠ [])
    (h : next t = .ok (token, rest)) :
    token.WellFormed ∧ (token.isCharacters = true → ∀ c s, rest = c :: s → c = '<') := by
  cases t with
  | nil => exact absurd rfl some_text
  | cons c t =>
    by_cases hc : c = '<'
    · subst hc
      obtain ⟨lexeme, markup⟩ := lexeme_of_next h
      refine ⟨(Token.wellFormed_iff markup).2 lexeme, fun characters => ?_⟩
      rw [markup] at characters
      cases characters
    · rw [next_of_ne hc] at h
      obtain ⟨rfl, rfl⟩ := Prod.mk.inj (Except.ok.inj h)
      refine ⟨⟨List.cons_ne_nil _ _, fun d hd => ?_⟩, fun _ d s e => ?_⟩
      · rcases List.mem_cons.1 hd with rfl | hd
        · exact hc
        · simpa using List.mem_takeWhile_imp hd
      · by_contra hd
        have stop := List.head?_dropWhile_not (· != '<') t
        rw [e] at stop
        simp [hd] at stop

/-! ## Runs of tokens -/

/-- Character data does not stand beside character data. -/
def Apart (a b : Token) : Prop := a.isCharacters = true → b.isCharacters = false

/-- **A run of tokens** that can be read. -/
structure Lexed (tokens : List Token) : Prop where
  wellFormed : ∀ token ∈ tokens, token.WellFormed
  apart : tokens.IsChain Apart

theorem Lexed.nil : Lexed [] := ⟨by simp, List.IsChain.nil⟩

theorem Lexed.singleton {token : Token} (h : token.WellFormed) : Lexed [token] := by
  refine ⟨fun t ht => ?_, List.isChain_singleton _⟩
  rwa [List.mem_singleton.1 ht]

theorem Lexed.tail {token : Token} {tokens : List Token} (h : Lexed (token :: tokens)) :
    Lexed tokens :=
  ⟨fun t ht => h.wellFormed t (List.mem_cons_of_mem _ ht), h.apart.tail⟩

/-- Two runs make up one when character data does not meet character data. -/
theorem Lexed.append {front back : List Token} (hf : Lexed front) (hb : Lexed back)
    (meet : ∀ a ∈ front.getLast?, ∀ b ∈ back.head?, Apart a b) : Lexed (front ++ back) := by
  refine ⟨fun t ht => ?_, hf.apart.append hb.apart meet⟩
  rcases List.mem_append.1 ht with ht | ht
  · exact hf.wellFormed t ht
  · exact hb.wellFormed t ht

/-- A run in two parts: both are runs, and character data does not meet character data between
    them. -/
theorem lexed_append {front back : List Token} :
    Lexed (front ++ back) ↔
      Lexed front ∧ Lexed back ∧ ∀ a ∈ front.getLast?, ∀ b ∈ back.head?, Apart a b := by
  constructor
  · intro h
    obtain ⟨apart_front, apart_back, meet⟩ := List.isChain_append.1 h.apart
    exact ⟨⟨fun t ht => h.wellFormed t (List.mem_append_left _ ht), apart_front⟩,
      ⟨fun t ht => h.wellFormed t (List.mem_append_right _ ht), apart_back⟩, meet⟩
  · rintro ⟨hf, hb, meet⟩
    exact hf.append hb meet

/-! ## Scanning -/

/-- Scanning goes on behind a token that was read. -/
theorem scan_cons {t rest : Text} {token : Token} (some_text : t ≠ [])
    (h : next t = .ok (token, rest)) :
    scan t = ⟨token :: (scan rest).tokens, (scan rest).misread⟩ := by
  rw [scan, dif_neg some_text]
  split
  · next e => rw [h] at e; cases e
  · next e =>
    rw [h] at e
    obtain ⟨rfl, rfl⟩ := Prod.mk.inj (Except.ok.inj e)
    rfl

theorem scan_nil : scan [] = ⟨[], none⟩ := by
  rw [scan, dif_pos rfl]

theorem scan_of_error {t : Text} {m : MisreadToken} (some_text : t ≠ []) (h : next t = .error m) :
    scan t = ⟨[], some m⟩ := by
  rw [scan, dif_neg some_text]
  split
  · next e => rw [h] at e; cases e; rfl
  · next e => rw [h] at e; cases e

/-- **Character data is read** up to the markup behind it, and it needs markup there to end. -/
theorem next_characters {raw t : Text} (some_text : raw ≠ []) (plain : ∀ c ∈ raw, c ≠ '<')
    (stops : ∀ c s, t = c :: s → c = '<') : next (raw ++ t) = .ok (.characters raw, t) := by
  cases raw with
  | nil => exact absurd rfl some_text
  | cons c raw =>
    have all : ∀ d ∈ raw, (d != '<') = true := fun d hd => by
      simpa using plain d (List.mem_cons_of_mem _ hd)
    have none_taken : t.takeWhile (· != '<') = [] ∧ t.dropWhile (· != '<') = t := by
      cases t with
      | nil => exact ⟨rfl, rfl⟩
      | cons c' s =>
        obtain rfl := stops c' s rfl
        exact ⟨rfl, rfl⟩
    rw [List.cons_append, next_of_ne (plain c List.mem_cons_self),
      List.takeWhile_append_of_pos all, List.dropWhile_append_of_pos all, none_taken.1,
      none_taken.2, List.append_nil]

/-- Tokens of which the first is markup are written with a `<` in front. -/
theorem head_of_flatMap_written {tokens : List Token}
    (markup : ∀ b ∈ tokens.head?, b.isCharacters = false) {c : Char} {s : Text}
    (h : tokens.flatMap Token.written = c :: s) : c = '<' := by
  cases tokens with
  | nil => cases h
  | cons token tokens =>
    obtain ⟨s', begins⟩ := Token.written_eq_cons (markup token rfl)
    rw [List.flatMap_cons, begins, List.cons_append] at h
    exact (List.cons.inj h).1.symm

/-- A token that can be read is written with a character at least. -/
theorem Token.WellFormed.written_ne_nil {token : Token} (h : token.WellFormed) :
    token.written ≠ [] := by
  intro nothing
  obtain rfl := written_eq_nil nothing
  exact Chunk.ne_nil h rfl

/-- A token that is written with a `<` in front is markup. -/
theorem Token.WellFormed.isCharacters_eq_false {token : Token} (h : token.WellFormed) {t s : Text}
    (begins : token.written ++ t = '<' :: s) : token.isCharacters = false := by
  cases token with
  | characters raw =>
    obtain ⟨some_text, plain⟩ := h
    cases raw with
    | nil => exact absurd rfl some_text
    | cons c raw => exact absurd (List.cons.inj begins).1 (plain c List.mem_cons_self)
  | _ => rfl

/-- **A run of tokens is what scanning its written form gives.**  By induction on the run: a
    lexeme is read whatever comes next, and character data is ended by the token behind it. -/
theorem scan_flatMap_written {tokens : List Token} (h : Lexed tokens) :
    scan (tokens.flatMap Token.written) = ⟨tokens, none⟩ := by
  induction tokens with
  | nil => exact scan_nil
  | cons token tokens ih =>
    have formed := h.wellFormed token List.mem_cons_self
    have read : next (token.written ++ tokens.flatMap Token.written)
        = .ok (token, tokens.flatMap Token.written) := by
      cases kind : token.isCharacters with
      | false => exact (Token.wellFormed_iff kind).1 formed _
      | true =>
        cases token with
        | characters raw =>
          -- the run keeps character data apart, so that markup ends it
          exact next_characters formed.1 formed.2 fun c s =>
            head_of_flatMap_written fun b hb => h.apart.rel_head? hb rfl
        | _ => cases kind
    have some_text : token.written ++ tokens.flatMap Token.written ≠ [] :=
      List.append_ne_nil_of_left_ne_nil formed.written_ne_nil _
    rw [List.flatMap_cons, scan_cons some_text read, ih h.tail]

/-- **Scanning gives a run of tokens**, and the tokens with what could not be read are the text. -/
theorem lexed_scan (t : Text) :
    Lexed (scan t).tokens ∧
      ∃ rest, t = (scan t).tokens.flatMap Token.written ++ rest ∧
        ((scan t).misread = none → rest = []) := by
  -- on the length, since a step leaves a text that is shorter and not a part by structure
  induction hn : t.length using Nat.strongRecOn generalizing t with
  | ind n ih =>
    by_cases nothing : t = []
    · subst nothing
      rw [scan_nil]
      exact ⟨Lexed.nil, [], rfl, fun _ => rfl⟩
    · cases read : next t with
      | error e =>
        rw [scan_of_error nothing read]
        exact ⟨Lexed.nil, t, rfl, fun h => by cases h⟩
      | ok found =>
        obtain ⟨token, rest⟩ := found
        have shorter := length_lt_of_next read nothing
        obtain ⟨lexed, left, whole, complete⟩ := ih rest.length (hn ▸ shorter) rest rfl
        obtain ⟨formed, meets⟩ := wellFormed_of_next nothing read
        rw [scan_cons nothing read]
        refine ⟨⟨?_, ?_⟩, left, ?_, complete⟩
        · intro other ho
          rcases List.mem_cons.1 ho with rfl | ho
          · exact formed
          · exact lexed.wellFormed other ho
        · refine lexed.apart.cons fun other ho characters => ?_
          obtain ⟨others, first⟩ := List.head?_eq_some_iff.1 ho
          have formed' := lexed.wellFormed other (by rw [first]; exact List.mem_cons_self)
          -- what is left behind character data begins with `<`, and with the next token
          rw [first, List.flatMap_cons, List.append_assoc] at whole
          cases begins : other.written ++ (others.flatMap Token.written ++ left) with
          | nil => exact absurd (List.append_eq_nil_iff.1 begins).1 formed'.written_ne_nil
          | cons c s =>
            rw [meets characters c s (whole.trans begins)] at begins
            exact formed'.isCharacters_eq_false begins
        · rw [List.flatMap_cons, List.append_assoc, ← whole]
          exact next_written read

end XmlGraft.Markup
