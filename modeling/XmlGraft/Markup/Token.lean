/-
  Tokens — markup cut into tags, comments, sections and the text between them.

  A token keeps what stands between its delimiters, so that `written` gives its characters back: the
  tokens of a text, written one after the other, are that text (`next_written`).  Nothing is said
  about names here; a tag ends at the first `>` outside quotes, and whatever stands in it is its
  content.

  * `next`   the token a text begins with, and the rest
  * `scan`   all tokens of a text, up to its end or to the first fault

  A text can begin with a token in one way only, since the first characters decide its kind, and its
  kind decides what ends it.  So reading is a function of the text and does not go back.  What is
  accepted is wider than the grammar of XML: a comment may hold two dashes, and a doctype is skipped
  to the bracket that closes it.  What is not accepted is told by a `TokenFault` with the byte it is
  reported at, counted from the markup that is at fault and not from the start of the text.

  Each token takes at least one character, so `scan` ends without being given a bound.
-/
import XmlGraft.Text.Basic

namespace XmlGraft.Markup

/-- **Token**: a piece of markup or the text between two of them. -/
inductive Token
  /-- Character data, up to the next `<`. -/
  | characters (raw : Text)
  /-- `<!--` body `-->` -/
  | comment (body : Text)
  /-- `<![CDATA[` body `]]>` -/
  | cdata (body : Text)
  /-- `<?` body `?>` -/
  | instruction (body : Text)
  /-- `<?` body `?>`, where the body is `xml` or begins with `xml` and a space. -/
  | declaration (body : Text)
  /-- `<!` body `>`, where the body begins with `DOCTYPE` in any case. -/
  | doctype (body : Text)
  /-- `<` content `>` -/
  | opening (content : Text)
  /-- `<` content `/>` -/
  | empty (content : Text)
  /-- `</` content `>` -/
  | closing (content : Text)
  deriving DecidableEq, Repr

/-- **The token as it is written.** -/
def Token.written : Token → Text
  | characters raw => raw
  | comment body => ['<', '!', '-', '-'] ++ body ++ ['-', '-', '>']
  | cdata body => ['<', '!', '[', 'C', 'D', 'A', 'T', 'A', '['] ++ body ++ [']', ']', '>']
  | instruction body => ['<', '?'] ++ body ++ ['?', '>']
  | declaration body => ['<', '?'] ++ body ++ ['?', '>']
  | doctype body => ['<', '!'] ++ body ++ ['>']
  | opening content => ['<'] ++ content ++ ['>']
  | empty content => ['<'] ++ content ++ ['/', '>']
  | closing content => ['<', '/'] ++ content ++ ['>']

/-- What can be left without its end. -/
inductive Construct
  | tag
  | comment
  | cdata
  | doctype
  | instruction
  deriving DecidableEq, Repr

/-- How the construct is called. -/
def Construct.name : Construct → String
  | tag => "tag"
  | comment => "comment"
  | cdata => "CDATA"
  | doctype => "DOCTYPE"
  | instruction => "processing instruction or xml declaration"

/-- What ends the construct. -/
def Construct.terminator : Construct → String
  | tag => ">"
  | comment => "-->"
  | cdata => "]]>"
  | doctype => ">"
  | instruction => "?>"

/-- **Why markup is no token.** -/
inductive TokenFault
  | notClosed (what : Construct)
  /-- `<!` is followed by nothing that begins a comment, a section or a doctype. -/
  | unknownMarkup
  /-- The doctype names no document type. -/
  | doctypeWithoutName
  deriving DecidableEq, Repr

/-- What is wrong with the markup, in words. -/
def TokenFault.message : TokenFault → String
  | notClosed what =>
    s!"syntax error: {what.name} not closed: `{what.terminator}` not found before end of input"
  | unknownMarkup => "syntax error: unknown or missed symbol in markup"
  | doctypeWithoutName =>
    "ill-formed document: `<!DOCTYPE>` declaration does not contain a name of a document type"

/-- A fault and the byte, counted from the start of the markup, that it is reported at. -/
structure MisreadToken where
  fault : TokenFault
  offset : Nat
  deriving DecidableEq, Repr

/-- White space inside tags and declarations. -/
def isTagSpace (c : Char) : Bool := c == ' ' || c == '\t' || c == '\r' || c == '\n'

/-! ## Where markup ends -/

/-- How many characters stand before the `>` that ends a tag: the first one outside quotes.  The
    first argument is the quote that is open. -/
def tagEnd? : Option Char → Text → Option Nat
  | _, [] => none
  | none, c :: t =>
    if c = '>' then some 0
    else (tagEnd? (if c = '"' ∨ c = '\'' then some c else none) t).map (· + 1)
  | some q, c :: t => (tagEnd? (if c = q then none else some q) t).map (· + 1)

/-- How many characters stand before the `>` that ends a doctype: the first one that closes no
    `<` of its own.  The first argument is the number of those that are open. -/
def doctypeEnd? : Nat → Text → Option Nat
  | _, [] => none
  | depth, c :: t =>
    if c = '<' then (doctypeEnd? (depth + 1) t).map (· + 1)
    else if c = '>' then
      match depth with
      | 0 => some 0
      | depth + 1 => (doctypeEnd? depth t).map (· + 1)
    else (doctypeEnd? depth t).map (· + 1)

/-- Is this the body of the XML declaration? -/
def declares (body : Text) : Bool :=
  match body with
  | 'x' :: 'm' :: 'l' :: [] => true
  | 'x' :: 'm' :: 'l' :: c :: _ => isTagSpace c
  | _ => false

/-- Does the text begin with `DOCTYPE`, in any case? -/
def beginsDoctype (t : Text) : Bool :=
  (t.take 7).map Char.toUpper == "DOCTYPE".toList

/-! ## One token -/

/-- A construct whose end was not found, or whose beginning is only part of one. -/
def notClosed (what : Construct) : Except MisreadToken (Token × Text) :=
  .error ⟨.notClosed what, 0⟩

/-- The token after `<!`. -/
def nextBang (t : Text) : Except MisreadToken (Token × Text) :=
  match t with
  | '-' :: '-' :: t =>
    match Text.cut? ['-', '-', '>'] t with
    | some (body, rest) => .ok (.comment body, rest)
    | none => notClosed .comment
  | '-' :: _ => notClosed .comment
  | '[' :: 'C' :: 'D' :: 'A' :: 'T' :: 'A' :: '[' :: t =>
    match Text.cut? [']', ']', '>'] t with
    | some (body, rest) => .ok (.cdata body, rest)
    | none => notClosed .cdata
  | '[' :: _ => notClosed .cdata
  | c :: t =>
    if c = 'D' ∨ c = 'd' then
      match doctypeEnd? 0 (c :: t) with
      | none => notClosed .doctype
      | some i =>
        let body := (c :: t).take i
        if !beginsDoctype body then notClosed .doctype
        else if (body.drop 7).all isTagSpace then
          .error ⟨.doctypeWithoutName, (Token.doctype body).written.size - 1⟩
        else .ok (.doctype body, (c :: t).drop (i + 1))
    else .error ⟨.unknownMarkup, 0⟩
  | [] => .error ⟨.unknownMarkup, 0⟩

/-- The token after `<?`; the body may not share its `?` with the start. -/
def nextInstruction (t : Text) : Except MisreadToken (Token × Text) :=
  match t with
  | '>' :: _ => notClosed .instruction
  | t =>
    match Text.cut? ['?', '>'] t with
    | some (body, rest) =>
      .ok (if declares body then .declaration body else .instruction body, rest)
    | none => notClosed .instruction

/-- The token after `</`. -/
def nextClosing (t : Text) : Except MisreadToken (Token × Text) :=
  match tagEnd? none t with
  | some i => .ok (.closing (t.take i), t.drop (i + 1))
  | none => notClosed .tag

/-- The token after a `<` that begins a tag. -/
def nextOpening (t : Text) : Except MisreadToken (Token × Text) :=
  match tagEnd? none t with
  | some i =>
    let content := t.take i
    .ok (if content.getLast? = some '/' then .empty content.dropLast else .opening content,
      t.drop (i + 1))
  | none => notClosed .tag

/-- **The token a text begins with**, and the rest of the text. -/
def next (t : Text) : Except MisreadToken (Token × Text) :=
  match t with
  | '<' :: '!' :: t => nextBang t
  | '<' :: '?' :: t => nextInstruction t
  | '<' :: '/' :: t => nextClosing t
  | '<' :: t => nextOpening t
  | t => .ok (.characters (t.takeWhile (· != '<')), t.dropWhile (· != '<'))

/-! ## A token and the rest make up the text -/

theorem eq_of_tagEnd? {q : Option Char} {t : Text} {i : Nat} (h : tagEnd? q t = some i) :
    t = t.take i ++ '>' :: t.drop (i + 1) := by
  induction t generalizing q i with
  | nil => cases q <;> simp [tagEnd?] at h
  | cons c t ih =>
    cases q with
    | none =>
      rw [tagEnd?] at h
      split at h
      · next hc => cases h; simp [hc]
      · obtain ⟨j, hj, rfl⟩ := Option.map_eq_some_iff.1 h
        simpa using ih hj
    | some q =>
      rw [tagEnd?] at h
      obtain ⟨j, hj, rfl⟩ := Option.map_eq_some_iff.1 h
      simpa using ih hj

theorem eq_of_doctypeEnd? {depth : Nat} {t : Text} {i : Nat} (h : doctypeEnd? depth t = some i) :
    t = t.take i ++ '>' :: t.drop (i + 1) := by
  induction t generalizing depth i with
  | nil => simp [doctypeEnd?] at h
  | cons c t ih =>
    rw [doctypeEnd?.eq_def] at h
    simp only at h
    split at h
    · obtain ⟨j, hj, rfl⟩ := Option.map_eq_some_iff.1 h
      simpa using ih hj
    · split at h
      · next hc =>
        cases depth with
        | zero => cases h; simp [hc]
        | succ depth =>
          obtain ⟨j, hj, rfl⟩ := Option.map_eq_some_iff.1 h
          simpa using ih hj
      · obtain ⟨j, hj, rfl⟩ := Option.map_eq_some_iff.1 h
        simpa using ih hj

/-- What the end of a construct says about the token and the rest. -/
theorem cut_written {mark t rest : Text} {token : Token} (before : Text) (make : Text → Token)
    (shape : ∀ body, (make body).written = before ++ body ++ mark)
    {what : Construct}
    (h : (match Text.cut? mark t with
      | some (body, rest) => Except.ok (make body, rest)
      | none => notClosed what) = .ok (token, rest)) :
    before ++ t = token.written ++ rest := by
  split at h
  · next body after hc =>
    simp only [Except.ok.injEq, Prod.mk.injEq] at h
    obtain ⟨rfl, rfl⟩ := h
    simp only [shape, List.append_assoc]
    rw [Text.eq_of_cut? hc]
    simp
  · simp [notClosed] at h

theorem nextBang_written {t rest : Text} {token : Token} (h : nextBang t = .ok (token, rest)) :
    '<' :: '!' :: t = token.written ++ rest := by
  unfold nextBang at h
  split at h
  · exact cut_written ['<', '!', '-', '-'] .comment (fun _ => rfl) h
  · simp [notClosed] at h
  · exact cut_written ['<', '!', '[', 'C', 'D', 'A', 'T', 'A', '['] .cdata (fun _ => rfl) h
  · simp [notClosed] at h
  · next c t _ _ _ _ =>
    split at h
    · split at h
      · simp [notClosed] at h
      · next i hi =>
        have whole := eq_of_doctypeEnd? hi
        simp only at h
        split at h
        · simp [notClosed] at h
        · split at h
          · simp at h
          · simp only [Except.ok.injEq, Prod.mk.injEq] at h
            obtain ⟨rfl, rfl⟩ := h
            simpa [Token.written] using whole
    · simp at h
  · simp at h

theorem nextInstruction_written {t rest : Text} {token : Token}
    (h : nextInstruction t = .ok (token, rest)) :
    '<' :: '?' :: t = token.written ++ rest := by
  unfold nextInstruction at h
  split at h
  · simp [notClosed] at h
  · exact cut_written ['<', '?']
      (fun body => if declares body then .declaration body else .instruction body)
      (fun body => by split <;> rfl) h

theorem nextClosing_written {t rest : Text} {token : Token}
    (h : nextClosing t = .ok (token, rest)) :
    '<' :: '/' :: t = token.written ++ rest := by
  unfold nextClosing at h
  split at h
  · next i hi =>
    simp only [Except.ok.injEq, Prod.mk.injEq] at h
    obtain ⟨rfl, rfl⟩ := h
    simpa [Token.written] using eq_of_tagEnd? hi
  · simp [notClosed] at h

theorem nextOpening_written {t rest : Text} {token : Token}
    (h : nextOpening t = .ok (token, rest)) :
    '<' :: t = token.written ++ rest := by
  unfold nextOpening at h
  split at h
  · next i hi =>
    simp only [Except.ok.injEq, Prod.mk.injEq] at h
    obtain ⟨rfl, rfl⟩ := h
    have whole := eq_of_tagEnd? hi
    split
    · next slash =>
      obtain ⟨front, hfront⟩ := List.getLast?_eq_some_iff.1 slash
      rw [hfront] at whole ⊢
      simpa [Token.written] using whole
    · simpa [Token.written] using whole
  · simp [notClosed] at h

/-- **A token and the rest make up the text.** -/
theorem next_written {t rest : Text} {token : Token} (h : next t = .ok (token, rest)) :
    t = token.written ++ rest := by
  unfold next at h
  split at h
  · exact nextBang_written h
  · exact nextInstruction_written h
  · exact nextClosing_written h
  · exact nextOpening_written h
  · simp only [Except.ok.injEq, Prod.mk.injEq] at h
    obtain ⟨rfl, rfl⟩ := h
    exact List.takeWhile_append_dropWhile.symm

/-- Only the text between two pieces of markup can be written with no characters. -/
theorem written_eq_nil {token : Token} (h : token.written = []) : token = .characters [] := by
  cases token <;> simp_all [Token.written]

/-- A text that is not empty begins with a token that is not empty. -/
theorem written_ne_nil {t rest : Text} {token : Token} (h : next t = .ok (token, rest))
    (some_text : t ≠ []) : token.written ≠ [] := by
  intro nothing
  obtain rfl := written_eq_nil nothing
  unfold next at h
  split at h
  · unfold nextBang at h
    repeat' split at h
    all_goals simp [notClosed] at h
    repeat' split at h
    all_goals simp at h
  · unfold nextInstruction at h
    repeat' split at h
    all_goals simp [notClosed] at h
  · unfold nextClosing at h
    split at h <;> simp [notClosed] at h
  · unfold nextOpening at h
    split at h <;> simp [notClosed] at h
    split at h <;> simp at h
  · cases t with
    | nil => exact some_text rfl
    | cons c t =>
      by_cases hc : c = '<'
      · simp_all
      · simp [hc] at h

/-- The rest is shorter than the text. -/
theorem length_lt_of_next {t rest : Text} {token : Token} (h : next t = .ok (token, rest))
    (some_text : t ≠ []) : rest.length < t.length := by
  have whole := congrArg List.length (next_written h)
  have := List.length_pos_iff.2 (written_ne_nil h some_text)
  simp only [List.length_append] at whole
  omega

/-! ## All tokens -/

/-- **A text as tokens**, with the fault that ended the reading if there was one. -/
structure Scan where
  tokens : List Token
  /-- What could not be read, at its offset after the last token. -/
  misread : Option MisreadToken
  deriving DecidableEq, Repr

/-- **All tokens of a text**, up to its end or to the first fault. -/
def scan (t : Text) : Scan :=
  if ended : t = [] then ⟨[], none⟩
  else
    match read : next t with
    | .error e => ⟨[], some e⟩
    | .ok (token, rest) =>
      have := length_lt_of_next read ended
      let more := scan rest
      ⟨token :: more.tokens, more.misread⟩
termination_by t.length

end XmlGraft.Markup
