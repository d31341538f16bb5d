/-
  Blame — where the errors of parsing point.

  An error is found in one of three places: at an event that cannot stand where it does, at markup
  that cannot be read, or at the end of the text.  Its offset is taken from a range that was
  recorded before, so it has to be shown that all of these are offsets into the text, and of the
  right tag.

  1. **Markup that cannot be read** (`boundary_of_misread`): it is reported at a byte behind the
     tokens before it.  Most faults are those of a piece of markup as a whole and are told at its
     `<`; a doctype without a name is told at its end.

  2. **What an error blames** (`Blames`): for each kind, the tag at its offset and, by the grammar
     of nesting, the element that it tells of.

  3. **One event** (`malformed_or_violation`) and **a run** (`exists_of_foldlM_error`): what ends
     the reading is a fault of one event, and everything before it was read.  So the invariant of
     the builder holds there, and says which element was open.

  4. **The report** (`lineAt?_offset`): the marked place is as many characters from the beginning of
     the text as stand before the offset.  The lines of a report are put together from the whole
     text, so that a place in them can be counted back.

  5. **Parsing** (`parse_blames`): the three cases put together.
-/
import XmlGraft.Markup.Annotated
import XmlGraft.Proofs.Markup.Nesting
import XmlGraft.Proofs.Source.Positions

namespace XmlGraft.Markup

open Text

/-! ## Markup that cannot be read -/

/-- A fault after `<!` is reported at its beginning, or before the `>` of a doctype. -/
theorem offset_of_nextBang {t : Text} {m : MisreadToken} (h : nextBang t = .error m) :
    m.offset = 0 ∨ ∃ body rest, t = body ++ '>' :: rest ∧ m.offset = Text.size (['<', '!'] ++ body) := by
  unfold nextBang at h
  split at h
  · split at h
    · cases h
    · cases h
      exact .inl rfl
  · cases h
    exact .inl rfl
  · split at h
    · cases h
    · cases h
      exact .inl rfl
  · cases h
    exact .inl rfl
  · -- only a doctype that was closed and names nothing is told at its end
    next c t _ _ _ _ =>
    split at h
    · split at h
      · cases h
        exact .inl rfl
      · next i ends =>
        simp only at h
        split at h
        · cases h
          exact .inl rfl
        · split at h
          · cases h
            refine .inr ⟨_, _, eq_of_doctypeEnd? ends, ?_⟩
            show Text.size (['<', '!'] ++ (c :: t).take i ++ ['>']) - 1 = _
            rw [size_append]
            exact Nat.add_sub_cancel _ 1
          · cases h
    · cases h
      exact .inl rfl
  · cases h
    exact .inl rfl

/-- **Markup that is no token** is reported at a byte of its own, with a character or the end
    behind it. -/
theorem boundary_of_next {t : Text} {m : MisreadToken} (h : next t = .error m) :
    Boundary t m.offset := by
  have first (zero : m.offset = 0) : Boundary t m.offset := ⟨[], t, rfl, zero.symm⟩
  unfold next at h
  split at h
  · rcases offset_of_nextBang h with zero | ⟨body, rest, rfl, offset⟩
    · exact first zero
    · exact ⟨['<', '!'] ++ body, '>' :: rest, by simp, offset.symm⟩
  · unfold nextInstruction at h
    split at h
    · cases h
      exact first rfl
    · split at h
      · cases h
      · cases h
        exact first rfl
  · unfold nextClosing at h
    split at h
    · cases h
    · cases h
      exact first rfl
  · unfold nextOpening at h
    split at h
    · cases h
    · cases h
      exact first rfl
  · cases h

/-- The markup that ends a scan stands behind the tokens before it.  On the length, as scanning
    goes. -/
theorem exists_of_scan_misread {t : Text} {m : MisreadToken} (h : (scan t).misread = some m) :
    ∃ rest, t = (scan t).tokens.flatMap Token.written ++ rest ∧ next rest = .error m := by
  induction hn : t.length using Nat.strongRecOn generalizing t with
  | ind n ih =>
    by_cases nothing : t = []
    · rw [nothing, scan_nil] at h
      cases h
    · cases read : next t with
      | error e =>
        rw [scan_of_error nothing read] at h ⊢
        cases h
        exact ⟨t, rfl, read⟩
      | ok found =>
        obtain ⟨token, rest⟩ := found
        rw [scan_cons nothing read] at h ⊢
        obtain ⟨left, whole, fails⟩ := ih rest.length (hn ▸ length_lt_of_next read nothing) h rfl
        refine ⟨left, ?_, fails⟩
        rw [List.flatMap_cons, List.append_assoc, ← whole]
        exact next_written read

/-- **Markup that cannot be read** is reported at a boundary of the text. -/
theorem boundary_of_misread {text : Text} (one : AtMostOneMark text) {fault : TokenFault} {o : Nat}
    (h : (Reading.ofSource (Source.ofText text)).misread = some (fault, o)) : Boundary text o := by
  obtain ⟨mark, body, rfl, isMark, unmarked⟩ := one.split
  obtain ⟨cut, size⟩ := withoutMark_append isMark unmarked
  have same : (Source.ofText (mark ++ body)).text = mark ++ body := rfl
  rw [Reading.ofSource, same, cut, size, withoutMark_of_unmarked unmarked] at h
  obtain ⟨m, misread, found⟩ := Option.map_eq_some_iff.1 h
  obtain ⟨-, rfl⟩ := Prod.mk.inj found
  -- behind the mark and the tokens stands the markup with its own offset
  obtain ⟨rest, whole, fails⟩ := exists_of_scan_misread misread
  obtain ⟨front, back, rfl, offset⟩ := boundary_of_next fails
  refine ⟨mark ++ (scan body).tokens.flatMap Token.written ++ front, back, ?_, ?_⟩
  · conv => lhs; rw [whole]
    simp only [List.append_assoc]
  · rw [size_append, size_append, offset]

/-! ## What an error blames -/

/-- **There is one element at the top level**, and nothing else that is a tag. -/
def OneAtTop (es : List Event) : Prop :=
  ∃ front inner back, es = front ++ inner ++ back ∧ OneElement inner ∧
    ∀ e ∈ front ++ back, e.token.begins = false ∧ e.token.closes = false

/-- **What an error blames** at byte `o`, where `rest` stands.  What is wrong with a piece of markup
    in itself, or with its place, blames that piece alone. -/
inductive Blames (r : Reading) (o : Nat) (rest : Text) : Error → Prop
  /-- The end tag there, and the element that is the innermost one open before it. -/
  | mismatched {before after : List Event} {e opener : Event} {content end_ : Text} :
      r.events = before ++ e :: after → e.start = o → e.token = .closing end_ →
      ['<', '/'] ++ Builder.closingName end_ <+: rest →
      Innermost before opener → opener.token = .opening content →
      tagName content ≠ Builder.closingName end_ →
      Blames r o rest (.mismatched (String.ofList (tagName content))
        (String.ofList (Builder.closingName end_)) (some o))
  /-- The start tag there, which is the innermost one that nothing closes up to the end of the text. -/
  | unfinished {opener : Event} {content : Text} :
      r.misread = none → Innermost r.events opener → opener.token = .opening content →
      opener.start = o → '<' :: tagName content <+: rest →
      Blames r o rest (.unfinished s!"closing tag </{String.ofList (tagName content)}>" (some o))
  /-- The tag there, with which the second element at the top level begins. -/
  | secondRoot {before after : List Event} {e : Event} :
      r.events = before ++ e :: after → e.start = o → e.token.begins = true → ['<'] <+: rest →
      OneAtTop before → Blames r o rest (.secondRoot (some o))
  | misplaced {reason : String} : Blames r o rest (.misplaced reason (some o))
  | malformed {reason : String} : Blames r o rest (.malformed reason (some o))

/-- Where no element is open and one has begun, it is the one at the top level. -/
theorem Builder.Fits.oneAtTop {es : List Event} {b : Builder} (h : Fits es b) (outside : ¬ Inside es)
    (begun : Begun es) : OneAtTop es := by
  cases h with
  | before around => exact absurd begun (not_begun_of_around around)
  | inside around stack => exact absurd ((Fits.inside around stack).inside_iff.2 (by simp)) outside
  | @after front inner back root around content around' =>
    refine ⟨front, inner, back, rfl, content.oneElement, fun e mem => ?_⟩
    rcases List.mem_append.1 mem with mem | mem
    · exact ⟨(around e mem).no_tag.2.2, (around e mem).no_tag.2.1⟩
    · exact ⟨(around' e mem).no_tag.2.2, (around' e mem).no_tag.2.1⟩

/-! ## One event -/

namespace Builder

/-- A tag or text that cannot be read is malformed, unless it is a second root element: whether a
    start tag may stand there is asked before its attributes are read. -/
theorem malformed_of_unreadable {es : List Event} {b : Builder} {e : Event} {fault : Error}
    (h : Fits es b) (unreadable : ¬ e.Readable) (refused : b.step e = .error fault) :
    (∃ reason, fault = .malformed reason (some e.start)) ∨ Violation es e fault := by
  rw [Event.Readable] at unreadable
  have untagged {content : Text} (no_attributes : ¬ ∃ as, attributes content = .ok as) :
      ∃ reason, tagOf e content = .error (.malformed reason (some e.start)) := by
    cases read : attributes content with
    | ok as => exact absurd ⟨as, read⟩ no_attributes
    | error fault => exact ⟨fault.message, by rw [tagOf, read]⟩
  cases token : e.token with
  | characters raw =>
    rw [token] at unreadable
    cases resolved : resolve raw with
    | ok value => exact absurd ⟨value, resolved⟩ unreadable
    | error fault' =>
      simp only [step, token, addText, resolved] at refused
      exact .inl ⟨_, (Except.error.inj refused).symm⟩
  | opening content =>
    rw [token] at unreadable
    obtain ⟨reason, untagged⟩ := untagged unreadable
    simp only [step, token, openElement, untagged] at refused
    split at refused
    · next second =>
      rw [Bool.and_eq_true, List.isEmpty_iff] at second
      obtain rfl := Except.error.inj refused
      refine .inr (.secondRoot ?_ (h.begun_iff.2 ?_) (by rw [token]; rfl))
      · rw [h.inside_iff]
        exact fun some => some second.1
      · rw [Builder.begun, second.2, Bool.or_true]
    · exact .inl ⟨reason, (Except.error.inj refused).symm⟩
  | empty content =>
    rw [token] at unreadable
    obtain ⟨reason, untagged⟩ := untagged unreadable
    simp only [step, token, emptyElement, untagged] at refused
    exact .inl ⟨reason, (Except.error.inj refused).symm⟩
  | _ =>
    rw [token] at unreadable
    exact absurd trivial unreadable

/-- An end tag with no element to close is malformed. -/
theorem malformed_of_unmatched {es : List Event} {b : Builder} {e : Event} {fault : Error}
    (h : Fits es b) (unmatched : ¬ (e.token.closes = true → Inside es))
    (refused : b.step e = .error fault) : ∃ reason, fault = .malformed reason (some e.start) := by
  obtain ⟨closes, outside⟩ := Classical.not_imp.1 unmatched
  have empty : b.openElements = [] := by rwa [h.inside_iff, not_not] at outside
  cases token : e.token with
  | closing end_ =>
    simp only [step, token, closeElement, empty] at refused
    exact ⟨_, (Except.error.inj refused).symm⟩
  | _ =>
    rw [token] at closes
    cases closes

/-- **What ends the reading** is markup that is wrong in itself, or a violation. -/
theorem malformed_or_violation {es : List Event} {b : Builder} {e : Event} {fault : Error}
    (h : Fits es b) (excerpt : e.excerpt.text = e.token.written)
    (refused : b.step e = .error fault) :
    (∃ reason, fault = .malformed reason (some e.start)) ∨ Violation es e fault := by
  -- what can be read and has its match is judged by nesting alone
  by_cases readable : e.Readable
  · by_cases matched : e.token.closes = true → Inside es
    · -- a section is never refused
      refine .inr (violation_of_step h ⟨excerpt, readable, matched, fun isSection => ?_⟩ refused)
      cases token : e.token with
      | cdata body =>
        simp only [step, token] at refused
        cases refused
      | _ =>
        rw [token] at isSection
        cases isSection
    · exact .inl (malformed_of_unmatched h matched refused)
  · exact malformed_of_unreadable h readable refused

end Builder

/-! ## A run -/

/-- **An error of a run** is the error of one event, behind events that are read. -/
theorem Builder.exists_of_foldlM_error {es₀ es : List Event} {b : Builder} {fault : Error}
    (h : Fits es₀ b) (refused : es.foldlM step b = .error fault) :
    ∃ before e after b', es = before ++ e :: after ∧ Fits (es₀ ++ before) b' ∧
      b'.step e = .error fault := by
  induction es generalizing es₀ b with
  | nil => cases refused
  | cons e es ih =>
    rw [List.foldlM_cons] at refused
    cases first : b.step e with
    | error fault' =>
      rw [first] at refused
      obtain rfl := Except.error.inj refused
      exact ⟨[], e, es, b, rfl, by rwa [List.append_nil], first⟩
    | ok b₁ =>
      rw [first] at refused
      obtain ⟨before, e', after, b', rfl, fits, last⟩ := ih (h.step first) refused
      exact ⟨e :: before, e', after, b', rfl, by simpa using fits, last⟩

/-- **Where parsing ends**: at an event, at markup that cannot be read, or at the end of the text.
    -/
theorem Document.refusal_cases {text : Text} {fault : Error} (h : parse text = .error fault) :
    (∃ before e after b, (Reading.ofSource (Source.ofText text)).events = before ++ e :: after ∧
      Builder.Fits before b ∧ b.step e = .error fault) ∨
    (∃ f o, (Reading.ofSource (Source.ofText text)).misread = some (f, o) ∧
      fault = .malformed f.message (some o)) ∨
    (Reading.ofSource (Source.ofText text)).misread = none ∧
      Missing (Reading.ofSource (Source.ofText text)).events fault := by
  have nothing : Builder.Fits [] Builder.start := .before (List.forall_mem_nil _)
  unfold parse at h
  cases built : (Reading.ofSource (Source.ofText text)).events.foldlM Builder.step Builder.start with
  | error fault' =>
    simp only [built, bind, Except.bind] at h
    obtain rfl := Except.error.inj h
    exact .inl (Builder.exists_of_foldlM_error nothing built)
  | ok b =>
    have fits := nothing.run built
    cases misread : (Reading.ofSource (Source.ofText text)).misread with
    | some found =>
      obtain ⟨f, o⟩ := found
      simp only [built, bind, Except.bind, misread] at h
      exact .inr (.inl ⟨f, o, rfl, (Except.error.inj h).symm⟩)
    | none =>
      cases finished : b.finish with
      | ok root =>
        simp only [built, bind, Except.bind, misread, finished] at h
        cases h
      | error fault' =>
        simp only [built, bind, Except.bind, misread, finished] at h
        obtain rfl := Except.error.inj h
        exact .inr (.inr ⟨rfl, (fits.finish_iff _).1 finished⟩)

/-! ## The report -/

/-- **The place of a character** is in a line of its own, as many characters from the beginning.
    By the recursion of the search, which takes off one line after the other. -/
theorem lineAt?_offset {ls : List Text} {n : Nat} {p : Place} (h : lineAt? ls n = some p) :
    ls[p.row]? = some p.line ∧ (ls.take p.row).flatten.length + p.column = n := by
  fun_induction lineAt? ls n generalizing p with
  | case1 => cases h
  | case2 line n =>
    obtain rfl := Option.some.inj h
    exact ⟨rfl, Nat.zero_add n⟩
  | case3 line next rest n inside =>
    obtain rfl := Option.some.inj h
    exact ⟨rfl, Nat.zero_add n⟩
  | case4 line next rest n outside ih =>
    obtain ⟨q, found, rfl⟩ := Option.map_eq_some_iff.1 h
    obtain ⟨line', offset⟩ := ih found
    refine ⟨line', ?_⟩
    simp only [List.take_succ_cons, List.flatten_cons, List.length_append]
    omega

/-- **The report of an error** marks the character at its offset: the offset in bytes is one in
    characters, and the lines of a text that is not empty have a place for it. -/
theorem Error.exists_place {fault : Error} {text front rest : Text} (some_text : text ≠ [])
    (whole : text = front ++ rest) (points : fault.offset? = some front.size) :
    charIndex text front.size = front.length ∧
      ∃ place, fault.place? text = some place ∧ (lines text)[place.row]? = some place.line ∧
        ((lines text).take place.row).flatten.length + place.column = front.length := by
  have index : charIndex text front.size = front.length := by
    have le : front.size ≤ text.size := by
      rw [whole, size_append]
      omega
    rw [charIndex, Nat.min_eq_left le, whole, before?_size]
    rfl
  -- a text with a character has a line
  have some_line : (lineAt? (lines text) front.length).isSome = true := by
    rw [lineAt?_isSome, Bool.not_eq_true', List.isEmpty_eq_false_iff]
    intro no_line
    have joined := flatten_lines text
    rw [no_line] at joined
    exact some_text joined.symm
  obtain ⟨place, found⟩ := Option.isSome_iff_exists.1 some_line
  refine ⟨index, place, ?_, lineAt?_offset found⟩
  rw [place?, points, Option.bind_eq_bind, Option.bind_some, index]
  exact found

/-! ## Parsing -/

/-- What stands at an event of a text: the event as it was written. -/
theorem exists_of_mem_events {text : Text} (one : AtMostOneMark text) {e : Event}
    (mem : e ∈ (Reading.ofSource (Source.ofText text)).events) :
    e.excerpt.text = e.token.written ∧
      ∃ front rest, text = front ++ rest ∧ front.size = e.start ∧ e.token.written <+: rest := by
  have recorded := recordedIn_events one e mem
  obtain ⟨front, after, whole, start, -⟩ := exists_of_slice? recorded.stands
  refine ⟨recorded.spelled, front, e.excerpt.text ++ after, ?_, start, ?_⟩
  · rw [whole, List.append_assoc]
  · rw [recorded.spelled]
    exact List.prefix_append _ _

/-- **A violation blames its event**, which is a tag where the error tells of one. -/
theorem blames_of_violation {r : Reading} {before after : List Event} {e : Event} {b : Builder}
    {fault : Error} {rest : Text} (h : Builder.Fits before b) (events : r.events = before ++ e :: after)
    (stands : e.token.written <+: rest) (violation : Violation before e fault) :
    fault.offset? = some e.start ∧ Blames r e.start rest fault := by
  cases violation with
  | mismatched innermost opening closing differ =>
    rw [closing] at stands
    refine ⟨rfl, .mismatched events rfl closing ?_ innermost opening differ⟩
    exact (prefix_brackets ['<', '/'] (prefix_closingName _) ['>']).trans stands
  | secondRoot outside begun begins =>
    have bracket : ['<'] <+: e.token.written := by
      cases token : e.token with
      | opening content | empty content => exact ⟨_, rfl⟩
      | _ =>
        rw [token] at begins
        cases begins
    exact ⟨rfl, .secondRoot events rfl begins (bracket.trans stands) (h.oneAtTop outside begun)⟩
  | data _ _ => exact ⟨rfl, .misplaced⟩
  | declaration _ _ => exact ⟨rfl, .misplaced⟩

/-- **Where an error stands, and what it blames**, by the place in which parsing ended. -/
theorem exists_blamed {text : Text} {fault : Error} {o : Nat} (one : AtMostOneMark text)
    (refused : Document.parse text = .error fault) (points : fault.offset? = some o) :
    ∃ front rest, text = front ++ rest ∧ front.size = o ∧
      Blames (Reading.ofSource (Source.ofText text)) o rest fault := by
  rcases Document.refusal_cases refused with ⟨before, e, after, b, events, fits, one_step⟩ |
    ⟨f, o', misread, rfl⟩ | ⟨complete, missing⟩
  · have mem : e ∈ (Reading.ofSource (Source.ofText text)).events := by
      rw [events]
      exact List.mem_append_right _ List.mem_cons_self
    obtain ⟨excerpt, front, rest, whole, start, stands⟩ := exists_of_mem_events one mem
    refine ⟨front, rest, whole, ?_⟩
    rcases Builder.malformed_or_violation fits excerpt one_step with ⟨reason, rfl⟩ | violation
    · obtain rfl := Option.some.inj points
      exact ⟨start, .malformed⟩
    · obtain ⟨offset, blames⟩ := blames_of_violation fits events stands violation
      obtain rfl := Option.some.inj (offset.symm.trans points)
      exact ⟨start, blames⟩
  · obtain rfl := Option.some.inj points
    obtain ⟨front, rest, whole, size⟩ := boundary_of_misread one misread
    exact ⟨front, rest, whole, size, .malformed⟩
  · cases missing with
    | @endTag opener content innermost opening =>
      obtain rfl := Option.some.inj points
      have mem : opener ∈ (Reading.ofSource (Source.ofText text)).events := by
        obtain ⟨outer, inner, events, -⟩ := innermost
        rw [events]
        exact List.mem_append_right _ List.mem_cons_self
      obtain ⟨-, front, rest, whole, start, stands⟩ := exists_of_mem_events one mem
      rw [opening] at stands
      refine ⟨front, rest, whole, start, .unfinished complete innermost opening rfl ?_⟩
      exact (prefix_brackets ['<'] (prefix_tagName content) ['>']).trans stands
    | element _ => cases points

/-- **Errors of parsing point at what they blame**: their offset is a boundary of the text, the
    report marks the character there, and the tag that stands there is the one the error tells of. -/
theorem parse_blames {text : Text} {fault : Error} {o : Nat} (one : AtMostOneMark text)
    (refused : Document.parse text = .error fault) (points : fault.offset? = some o) :
    ∃ front rest, text = front ++ rest ∧ front.size = o ∧
      Error.charIndex text o = front.length ∧
      (∃ place, fault.place? text = some place ∧ (lines text)[place.row]? = some place.line ∧
        ((lines text).take place.row).flatten.length + place.column = front.length) ∧
      Blames (Reading.ofSource (Source.ofText text)) o rest fault := by
  obtain ⟨front, rest, whole, rfl, blames⟩ := exists_blamed one refused points
  have some_text : text ≠ [] := by
    rintro rfl
    -- an empty text has no root element, and that error has no offset
    have empty : Document.parse [] = .error .noRoot := by with_unfolding_all rfl
    rw [empty] at refused
    obtain rfl := Except.error.inj refused
    cases points
  obtain ⟨index, place⟩ := Error.exists_place some_text whole points
  exact ⟨front, rest, whole, rfl, index, place, blames⟩

/-! ### An end tag of another element -/

namespace Crossed

/-- A mark, a character of two bytes, and an element that is closed too early. -/
def text : Text := "\uFEFF<a>é\n<b/><c></a></c>".toList

theorem parse_text : Document.parse text = .error (.mismatched "c" "a" (some 16)) := by with_unfolding_all rfl

end Crossed

/-- The end tag of the outer element is blamed, on the second line of the report. -/
theorem parse_blames_crossed :
    AtMostOneMark Crossed.text ∧
    Document.parse Crossed.text = .error (.mismatched "c" "a" (some 16)) ∧
    Error.offset? (.mismatched "c" "a" (some 16)) = some 16 ∧
    Error.charIndex Crossed.text 16 = 13 ∧
    ∃ front rest, Crossed.text = front ++ rest ∧ front.size = 16 ∧
      Blames (Reading.ofSource (Source.ofText Crossed.text)) 16 rest
        (.mismatched "c" "a" (some 16)) := by
  have one : AtMostOneMark Crossed.text := by decide
  obtain ⟨front, rest, whole, size, -, -, blames⟩ := parse_blames one Crossed.parse_text rfl
  exact ⟨one, Crossed.parse_text, rfl, by rfl, front, rest, whole, size, blames⟩

end XmlGraft.Markup
