/-
  Attributes — reading them back, and what reading them says about a tag.

  Attributes are read one after the other, each with the keys that stood before it, since a key must
  not stand twice.  The reader carries offsets for its faults; these do not decide what is read, and
  each lemma says so by quantifying over them.

  1. **Locality** (`nextAttribute_local`): an attribute is read from its own characters, whatever
     comes next, and the last of them is a quote.

  2. **The body of a tag** (`attributesFrom_body`): what stands behind the last attribute is white
     space; without it the attributes are the same.  A single tag that is written as a start tag
     loses exactly this white space, and the slash behind it.

  3. **Written attributes** (`attributesFrom_written`): attributes with plain, distinct keys are
     read back from their written forms.  A value is escaped, so that the quote around it ends it.

  4. **Keys** (`nodup_of_attributesFrom`): no two attributes of a tag have one key.

  Both inductions over what is read go on the length of the text.  What is left behind an attribute
  is shorter, but it is no part of the text that a structural recursion would come to.
-/
import Mathlib.Data.List.TakeWhile
import XmlGraft.Proofs.Markup.Names

namespace XmlGraft.Markup

/-! ## Runs of characters -/

/-- A run ends before the first character that stops it. -/
theorem takeWhile_append_stop {p : Char → Bool} {s : Text} {c : Char} (all : ∀ d ∈ s, p d = true)
    (stop : p c = false) (t : Text) : (s ++ c :: t).takeWhile p = s := by
  rw [List.takeWhile_append_of_pos all, List.takeWhile_cons_of_neg (by simp [stop]),
    List.append_nil]

/-- What a run leaves begins with the first character that stops it. -/
theorem dropWhile_append_stop {p : Char → Bool} {s : Text} {c : Char} (all : ∀ d ∈ s, p d = true)
    (stop : p c = false) (t : Text) : (s ++ c :: t).dropWhile p = c :: t := by
  rw [List.dropWhile_append_of_pos all, List.dropWhile_cons_of_neg (by simp [stop])]

/-- What a run leaves begins with a character that stops it. -/
theorem eq_of_dropWhile_eq_cons {p : Char → Bool} {t : Text} {c : Char} {rest : Text}
    (h : t.dropWhile p = c :: rest) :
    p c = false ∧ t = t.takeWhile p ++ c :: rest ∧ ∀ d ∈ t.takeWhile p, p d = true := by
  have stop := List.head?_dropWhile_not p t
  rw [h] at stop
  refine ⟨by simpa using stop, ?_, fun d hd => List.mem_takeWhile_imp hd⟩
  rw [← h, List.takeWhile_append_dropWhile]

/-- White space before a character is passed in the same way, whatever comes behind that
    character. -/
theorem skipSpace_cons {o o' : Nat} {t rest : Text} {c : Char}
    (h : skipSpace o t = (o', c :: rest)) :
    ∃ s, t = s ++ c :: rest ∧ isTagSpace c = false ∧
      ∀ rest', skipSpace o (s ++ c :: rest') = (o', c :: rest') := by
  obtain ⟨rfl, dropped⟩ := Prod.mk.inj h
  obtain ⟨stop, whole, all⟩ := eq_of_dropWhile_eq_cons dropped
  refine ⟨t.takeWhile isTagSpace, whole, stop, fun rest' => ?_⟩
  rw [skipSpace, takeWhile_append_stop all stop, dropWhile_append_stop all stop]

/-- Where nothing is left behind white space, there was white space only. -/
theorem skipSpace_nil {o o' : Nat} {t : Text} (h : skipSpace o t = (o', [])) :
    ∀ c ∈ t, isTagSpace c = true :=
  List.dropWhile_eq_nil_iff.1 (Prod.mk.inj h).2

theorem skipSpace_of_ne {o : Nat} {t : Text} {c : Char} (h : isTagSpace c = false) :
    skipSpace o (c :: t) = (o, c :: t) := by
  rw [skipSpace, List.takeWhile_cons_of_neg (by simp [h]), List.dropWhile_cons_of_neg (by simp [h])]
  rfl

/-! ## Locality -/

/-- Is the text empty, or is its last character a quote? -/
def EndsInQuote (t : Text) : Prop := ∃ front q, t = front ++ [q] ∧ (q = '"' ∨ q = '\'')

theorem EndsInQuote.append {t : Text} (h : EndsInQuote t) (s : Text) : EndsInQuote (s ++ t) := by
  obtain ⟨front, q, rfl, quote⟩ := h
  exact ⟨s ++ front, q, by rw [List.append_assoc], quote⟩

/-- A value is read from its own characters, up to the quote that closes it. -/
theorem nextValue_local {total o o' : Nat} {t raw rest : Text}
    (h : nextValue total o t = .ok (raw, o', rest)) :
    ∃ piece, t = piece ++ rest ∧ EndsInQuote piece ∧
      ∀ total' rest', nextValue total' o (piece ++ rest') = .ok (raw, o', rest') := by
  unfold nextValue at h
  split at h
  · cases h
  · next o₁ q t₁ skipped =>
    obtain ⟨s, rfl, stop, skips⟩ := skipSpace_cons skipped
    split at h
    · next quote =>
      split at h
      · cases h
      · next c rest₁ dropped =>
        cases h
        obtain ⟨stop_q, whole, all⟩ := eq_of_dropWhile_eq_cons dropped
        -- the run stopped at the quote that had opened it
        have same : c = q := by simpa using stop_q
        subst same
        refine ⟨s ++ c :: t₁.takeWhile (· != c) ++ [c], ?_, ⟨_, c, rfl, quote⟩, fun total' rest' => ?_⟩
        · conv => lhs; rw [whole]
          simp
        · unfold nextValue
          have shape : s ++ c :: t₁.takeWhile (· != c) ++ [c] ++ rest'
              = s ++ c :: (t₁.takeWhile (· != c) ++ c :: rest') := by simp
          rw [shape, skips]
          simp only [if_pos quote]
          rw [dropWhile_append_stop all (by simp), takeWhile_append_stop all (by simp)]
    · cases h

/-- **An attribute is read from its own characters**, whatever comes next: white space, a key,
    perhaps a gap, the `=`, and a value that ends in its quote. -/
theorem nextAttribute_local {total o o' : Nat} {seen : List (Text × Nat)} {t rest : Text}
    {a : WrittenAttribute} (h : nextAttribute total seen o t = .ok (some (a, o', rest))) :
    ∃ piece, t = piece ++ rest ∧ EndsInQuote piece ∧
      ∀ total' rest', nextAttribute total' seen o (piece ++ rest') = .ok (some (a, o', rest')) := by
  unfold nextAttribute at h
  split at h
  · cases h
  · next start k t₁ skipped =>
    obtain ⟨s, rfl, stop, skips⟩ := skipSpace_cons skipped
    simp only at h
    split at h
    · cases h
    · next o₂ c t₂ skipped₂ =>
      split at h
      · next equals =>
        split at h
        · cases h
        · next unseen =>
          split at h
          · cases h
          · next raw o₃ rest₃ value =>
            subst equals
            cases h
            -- the pieces of the attribute, from its key to its last quote
            obtain ⟨gap, shape, -, skips₂⟩ := skipSpace_cons skipped₂
            obtain ⟨piece, rfl, quote, reads⟩ := nextValue_local value
            refine ⟨s ++ k :: t₁.takeWhile isKeyChar ++ gap ++ '=' :: piece, ?_,
              (quote.append ['=']).append _, fun total' rest' => ?_⟩
            · conv => lhs; rw [← t₁.takeWhile_append_dropWhile (p := isKeyChar), shape]
              simp
            · have keyed : ∀ d ∈ t₁.takeWhile isKeyChar, isKeyChar d = true :=
                fun d hd => List.mem_takeWhile_imp hd
              -- the key ends where its own characters end: at the gap or at the `=`
              have ends : ∃ d tail, gap ++ '=' :: (piece ++ rest') = d :: tail
                  ∧ isKeyChar d = false := by
                cases gap with
                | nil => exact ⟨'=', _, rfl, rfl⟩
                | cons d gap =>
                  refine ⟨d, _, rfl, ?_⟩
                  have begins := (eq_of_dropWhile_eq_cons shape).1
                  exact begins
              obtain ⟨d, tail, e, no_key⟩ := ends
              have whole : s ++ k :: t₁.takeWhile isKeyChar ++ gap ++ '=' :: piece ++ rest'
                  = s ++ k :: (t₁.takeWhile isKeyChar ++ (gap ++ '=' :: (piece ++ rest'))) := by
                simp
              unfold nextAttribute
              rw [whole, skips]
              simp only
              rw [e, takeWhile_append_stop keyed no_key, dropWhile_append_stop keyed no_key, ← e,
                skips₂]
              simp only [if_true, unseen]
              rw [reads total' rest']
      · cases h

/-! ## All attributes -/

theorem attributesFrom_nil {total o : Nat} {seen : List (Text × Nat)} {t : Text}
    (read : nextAttribute total seen o t = .ok none) : attributesFrom total seen o t = .ok [] := by
  rw [attributesFrom]
  split
  · next e => rw [read] at e; cases e
  · rfl
  · next e => rw [read] at e; cases e

/-- The first attribute with its value resolved, and then the others, for which its key has stood.
    -/
theorem attributesFrom_cons {total o o' : Nat} {seen : List (Text × Nat)} {t rest value : Text}
    {a : WrittenAttribute} (read : nextAttribute total seen o t = .ok (some (a, o', rest)))
    (resolved : resolve a.raw = .ok value) :
    attributesFrom total seen o t
      = (attributesFrom total (seen ++ [(a.key, a.offset)]) o' rest).map (⟨a.key, value⟩ :: ·) := by
  rw [attributesFrom]
  split
  · next e => rw [read] at e; cases e
  · next e => rw [read] at e; cases e
  · next e =>
    rw [read] at e
    cases e
    rw [resolved]
    rfl

/-- **Attributes that can be read**: there are none, or a first one and the others.  The inversion
    of the two equations above; the cases in which reading fails are excluded here once and for
    all. -/
theorem attributesFrom_eq_ok {total o : Nat} {seen : List (Text × Nat)} {t : Text}
    {as : List Attribute} (h : attributesFrom total seen o t = .ok as) :
    (nextAttribute total seen o t = .ok none ∧ as = []) ∨
    ∃ a o' rest value more, nextAttribute total seen o t = .ok (some (a, o', rest)) ∧
      resolve a.raw = .ok value ∧
      attributesFrom total (seen ++ [(a.key, a.offset)]) o' rest = .ok more ∧
      as = ⟨a.key, value⟩ :: more := by
  cases read : nextAttribute total seen o t with
  | error fault =>
    rw [attributesFrom] at h
    split at h
    · cases h
    · next e => rw [read] at e; cases e
    · next e => rw [read] at e; cases e
  | ok found =>
    cases found with
    | none =>
      rw [attributesFrom_nil read] at h
      cases h
      exact .inl ⟨rfl, rfl⟩
    | some found =>
      obtain ⟨a, o', rest⟩ := found
      refine .inr ⟨a, o', rest, ?_⟩
      cases resolved : resolve a.raw with
      | error fault =>
        rw [attributesFrom] at h
        split at h
        · cases h
        · next e => rw [read] at e; cases e
        · next e =>
          rw [read] at e
          cases e
          rw [resolved] at h
          cases h
      | ok value =>
        rw [attributesFrom_cons read resolved] at h
        cases others : attributesFrom total (seen ++ [(a.key, a.offset)]) o' rest with
        | error fault =>
          rw [others] at h
          cases h
        | ok more =>
          rw [others] at h
          cases h
          exact ⟨value, more, rfl, rfl, rfl, rfl⟩

/-- Where there is no further attribute, white space is all that is left. -/
theorem nextAttribute_none {total o : Nat} {seen : List (Text × Nat)} {t : Text}
    (h : nextAttribute total seen o t = .ok none) : ∀ c ∈ t, isTagSpace c = true := by
  unfold nextAttribute at h
  split at h
  · next skipped => exact skipSpace_nil skipped
  · simp only at h
    split at h
    · cases h
    · split at h
      · split at h
        · cases h
        · split at h <;> cases h
      · cases h

theorem nextAttribute_nil (total o : Nat) (seen : List (Text × Nat)) :
    nextAttribute total seen o [] = .ok none := rfl

/-- **The body of a tag**: white space at its end does not matter to its attributes, and without
    it the last character is a quote. -/
theorem attributesFrom_body {t : Text} :
    ∀ {total o : Nat} {seen : List (Text × Nat)} {as : List Attribute},
      attributesFrom total seen o t = .ok as →
      ∃ body space, t = body ++ space ∧ (∀ c ∈ space, isTagSpace c = true) ∧
        (body = [] ∨ EndsInQuote body) ∧
        ∀ total', attributesFrom total' seen o body = .ok as := by
  -- on the length, since what is left behind an attribute is no part by structure
  induction hn : t.length using Nat.strongRecOn generalizing t with
  | ind n ih =>
    intro total o seen as h
    rcases attributesFrom_eq_ok h with ⟨read, rfl⟩ | ⟨a, o', rest, value, more, read, res, others, rfl⟩
    · exact ⟨[], t, rfl, nextAttribute_none read, .inl rfl,
        fun total' => attributesFrom_nil (nextAttribute_nil total' o seen)⟩
    · obtain ⟨body, space, e, blank, ends, reads⟩ :=
        ih rest.length (hn ▸ length_lt_of_nextAttribute read) rfl others
      obtain ⟨piece, rfl, quote, first⟩ := nextAttribute_local read
      -- the body of the others begins behind this attribute
      refine ⟨piece ++ body, space, by rw [e, List.append_assoc], blank, .inr ?_, fun total' => ?_⟩
      · rcases ends with rfl | ends
        · rwa [List.append_nil]
        · exact ends.append piece
      · rw [attributesFrom_cons (first total' body) res, reads total']
        rfl

/-! ## Written attributes -/

/-- No quote stands in an escaped value, for the quote itself is escaped. -/
theorem quote_not_mem_escapeValue (value : Text) : ∀ c ∈ escapeValue value, c ≠ '"' := by
  intro c hc
  obtain ⟨d, -, hd⟩ := List.mem_flatMap.1 hc
  rintro rfl
  unfold escapeValueChar at hd
  split at hd
  · exact absurd hd (by decide)
  · exact absurd hd (by decide)
  · next no_quote =>
    unfold escapeTextChar at hd
    split at hd
    · exact absurd hd (by decide)
    · exact absurd hd (by decide)
    · exact absurd hd (by decide)
    · exact no_quote (List.mem_singleton.1 hd).symm

/-- A plain name can be a key: neither white space nor `=` ends it early. -/
theorem PlainName.isKeyChar {name : Text} (h : PlainName name) :
    ∀ c ∈ name, isKeyChar c = true := by
  intro c hc
  have plain := h.plain c hc
  have equals : c ≠ '=' := by
    rintro rfl
    exact plain.no_mark (by decide)
  simp [XmlGraft.Markup.isKeyChar, plain.no_tagSpace, equals]

/-- A written attribute with a plain key that did not stand before is read back.  Only where it
    was read from, and where reading goes on, depends on the offset. -/
theorem nextAttribute_written {a : Attribute} (plain : PlainName a.name) (total o : Nat)
    {seen : List (Text × Nat)} (unseen : seen.lookup a.name = none) (rest : Text) :
    ∃ start o', nextAttribute total seen o (' ' :: a.written ++ rest)
      = .ok (some (⟨a.name, start, escapeValue a.value⟩, o', rest)) := by
  obtain ⟨name, value⟩ := a
  cases name with
  | nil => exact absurd rfl plain.ne_nil
  | cons k key =>
    have no_space := (plain.plain k List.mem_cons_self).no_tagSpace
    have keyed : ∀ d ∈ key, isKeyChar d = true :=
      fun d hd => plain.isKeyChar d (List.mem_cons_of_mem _ hd)
    have shape : ' ' :: Attribute.written ⟨k :: key, value⟩ ++ rest
        = ' ' :: k :: (key ++ '=' :: '"' :: (escapeValue value ++ '"' :: rest)) := by
      simp [Attribute.written]
    have skips : skipSpace o (' ' :: k :: (key ++ '=' :: '"' :: (escapeValue value ++ '"' :: rest)))
        = (o + 1, k :: (key ++ '=' :: '"' :: (escapeValue value ++ '"' :: rest))) := by
      rw [skipSpace, List.takeWhile_cons_of_pos rfl, List.dropWhile_cons_of_pos rfl,
        List.takeWhile_cons_of_neg (by simp [no_space]),
        List.dropWhile_cons_of_neg (by simp [no_space])]
      rfl
    have value_chars : ∀ d ∈ escapeValue value, (d != '"') = true := fun d hd => by
      simpa using quote_not_mem_escapeValue value d hd
    -- the value is read from any offset, since only faults speak of one
    have reads : ∀ o, ∃ o', nextValue total o ('"' :: (escapeValue value ++ '"' :: rest))
        = .ok (escapeValue value, o', rest) := by
      intro o
      unfold nextValue
      rw [skipSpace_of_ne rfl]
      simp only [true_or, if_true]
      rw [dropWhile_append_stop value_chars (by simp), takeWhile_append_stop value_chars (by simp)]
      exact ⟨_, rfl⟩
    rw [shape]
    unfold nextAttribute
    rw [skips]
    simp only
    rw [takeWhile_append_stop keyed rfl, dropWhile_append_stop keyed rfl, skipSpace_of_ne rfl]
    simp only [if_true, unseen]
    obtain ⟨o', read⟩ := reads (o + 1 + Text.size (k :: key) + 1)
    rw [read]
    exact ⟨_, _, rfl⟩

theorem lookup_append_none {seen more : List (Text × Nat)} {key : Text} :
    (seen ++ more).lookup key = none ↔ seen.lookup key = none ∧ more.lookup key = none := by
  rw [List.lookup_append, Option.or_eq_none_iff]

theorem lookup_singleton_none {key other : Text} {n : Nat} :
    [(other, n)].lookup key = none ↔ key ≠ other := by
  rw [List.lookup_eq_none_iff]
  simp

/-- **Written attributes are read back**, when their keys are plain and distinct.  By induction on
    the attributes, with the keys that stood before them: none of these is a key that is still to
    come. -/
theorem attributesFrom_written {as : List Attribute} (plain : ∀ a ∈ as, PlainName a.name)
    (distinct : (as.map (·.name)).Nodup) :
    ∀ (total o : Nat) (seen : List (Text × Nat)), (∀ a ∈ as, seen.lookup a.name = none) →
      attributesFrom total seen o (as.flatMap fun a => ' ' :: a.written) = .ok as := by
  induction as with
  | nil =>
    intro total o seen _
    exact attributesFrom_nil (nextAttribute_nil total o seen)
  | cons a as ih =>
    intro total o seen unseen
    obtain ⟨fresh, distinct⟩ := List.nodup_cons.1 distinct
    obtain ⟨start, o', read⟩ := nextAttribute_written (plain a List.mem_cons_self) total o
      (unseen a List.mem_cons_self) (as.flatMap fun a => ' ' :: a.written)
    -- the key that was just read is not among those to come, for the keys are distinct
    have others : ∀ b ∈ as, (seen ++ [(a.name, start)]).lookup b.name = none := by
      intro b hb
      refine lookup_append_none.2 ⟨unseen b (List.mem_cons_of_mem _ hb),
        lookup_singleton_none.2 fun same => fresh ?_⟩
      exact List.mem_map.2 ⟨b, hb, same⟩
    rw [List.flatMap_cons, attributesFrom_cons read (resolve_escapeValue a.value),
      ih (fun b hb => plain b (List.mem_cons_of_mem _ hb)) distinct total o' _ others]
    rfl

/-! ## Keys -/

/-- An attribute is read only when its key did not stand before. -/
theorem lookup_of_nextAttribute {total o o' : Nat} {seen : List (Text × Nat)} {t rest : Text}
    {a : WrittenAttribute} (h : nextAttribute total seen o t = .ok (some (a, o', rest))) :
    seen.lookup a.key = none := by
  unfold nextAttribute at h
  split at h
  · cases h
  · simp only at h
    split at h
    · cases h
    · split at h
      · split at h
        · cases h
        · next unseen =>
          split at h
          · cases h
          · cases h
            exact unseen
      · cases h

/-- **No two attributes have one key**, and none has a key that stood before.  The second half
    carries the first through the induction: a key that was read has stood before all those behind
    it. -/
theorem nodup_of_attributesFrom {t : Text} :
    ∀ {total o : Nat} {seen : List (Text × Nat)} {as : List Attribute},
      attributesFrom total seen o t = .ok as →
      (as.map (·.name)).Nodup ∧ ∀ a ∈ as, seen.lookup a.name = none := by
  induction hn : t.length using Nat.strongRecOn generalizing t with
  | ind n ih =>
    intro total o seen as h
    rcases attributesFrom_eq_ok h with ⟨-, rfl⟩ | ⟨a, o', rest, value, more, read, -, others, rfl⟩
    · exact ⟨List.nodup_nil, by simp⟩
    · obtain ⟨distinct, unseen⟩ := ih rest.length (hn ▸ length_lt_of_nextAttribute read) rfl others
      refine ⟨List.nodup_cons.2 ⟨fun again => ?_, distinct⟩, fun b hb => ?_⟩
      · obtain ⟨b, hb, same⟩ := List.mem_map.1 again
        exact lookup_singleton_none.1 (lookup_append_none.1 (unseen b hb)).2 same
      · rcases List.mem_cons.1 hb with rfl | hb
        · exact lookup_of_nextAttribute read
        · exact (lookup_append_none.1 (unseen b hb)).1

end XmlGraft.Markup
