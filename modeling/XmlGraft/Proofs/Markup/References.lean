/-
  References — resolving, piece by piece.

  1. **Resolving as a relation** (`resolve_eq_ok_iff`): offsets decide only how a fault is told, so
     what a text stands for can be put together from what its pieces stand for.  The relation has
     one constructor for a character and one for a reference, as the recursion has; it knows no
     offset, and the two directions of the equivalence carry any offset along.

  2. **Pieces** (`Resolves.append`, `Resolves.split_front`, `Resolves.split_back`): two texts are
     resolved one behind the other.  The other way a text may be cut in front of or behind a piece
     without `&` and `;`, for such a piece is no part of a reference.

  3. **Escaping** (`ne_mark_of_mem_escapeText`): what is escaped begins no tag.

  4. **Spaces** (`Resolves.trim`, `Resolves.trim_eq_self`): spaces around a text stand for
     themselves.  So a text may be trimmed before it is resolved or behind it, and text whose
     meaning is trimmed is trimmed itself.

  A reference that cannot be resolved has no place in the relation.  Where the library goes on with
  such a text, it takes the text as it stands (`resolveOrSame`), and what is said of it is said by
  cases: it stands for something, or it is the same.
-/
import XmlGraft.Markup.Reference
import XmlGraft.Proofs.Text.Pieces

namespace XmlGraft.Markup

/-- **A text stands for another**, whatever its offset. -/
inductive Resolves : Text → Text → Prop
  | nil : Resolves [] []
  | cons {c : Char} {t v : Text} : c ≠ '&' → Resolves t v → Resolves (c :: t) (c :: v)
  | reference {name rest v : Text} {c : Char} : (∀ d ∈ name, d ≠ '&' ∧ d ≠ ';') →
      (∀ start, referent start name = .ok c) → Resolves rest v →
      Resolves ('&' :: (name ++ ';' :: rest)) (c :: v)

/-- What a reference stands for does not depend on where it stands; only the fault does. -/
theorem referent_eq_ok {start : Nat} {name : Text} {c : Char} (h : referent start name = .ok c)
    (start' : Nat) : referent start' name = .ok c := by
  unfold referent at h ⊢
  split at h
  · exact h
  · exact h
  · split at h
    · exact h
    · cases h

theorem mem_referenceName {t : Text} : ∀ c ∈ referenceName t, c ≠ '&' ∧ c ≠ ';' := by
  intro c hc
  have := List.mem_takeWhile_imp hc
  simpa using this

/-- The name ends at its semicolon, whatever comes behind. -/
theorem referenceName_append {name : Text} (plain : ∀ c ∈ name, c ≠ '&' ∧ c ≠ ';') (rest : Text) :
    referenceName (name ++ ';' :: rest) = name := by
  rw [referenceName, List.takeWhile_append_of_pos fun c hc => by simp [plain c hc],
    List.takeWhile_cons_of_neg (by simp), List.append_nil]

/-- One step of resolving, at a character that stands for itself.  The rest was resolved too, or
    there would be no answer. -/
theorem of_resolveFrom_cons {c : Char} (plain : c ≠ '&') {total o : Nat} {t v : Text}
    (h : resolveFrom total o (c :: t) = .ok v) :
    ∃ w, resolveFrom total (o + c.utf8Size) t = .ok w ∧ v = c :: w := by
  rw [resolveFrom_cons plain] at h
  cases more : resolveFrom total (o + c.utf8Size) t with
  | error fault =>
    rw [more] at h
    cases h
  | ok w =>
    rw [more] at h
    exact ⟨w, rfl, (Except.ok.inj h).symm⟩

/-- One step of resolving, at a reference: it is closed by a semicolon, it is a known one, and the
    rest was resolved. -/
theorem of_resolveFrom_reference {total o : Nat} {t v : Text}
    (h : resolveFrom total o ('&' :: t) = .ok v) :
    ∃ name rest c w o', t = name ++ ';' :: rest ∧ (∀ d ∈ name, d ≠ '&' ∧ d ≠ ';') ∧
      referent (o + 1) name = .ok c ∧ resolveFrom total o' rest = .ok w ∧ v = c :: w := by
  rw [resolveFrom, if_pos rfl] at h
  split at h
  · next rest dropped =>
    -- the name was taken from the front up to where the rest begins
    have whole : t = referenceName t ++ ';' :: rest := by
      rw [← dropped]
      exact (List.prefix_iff_eq_append.1 (List.takeWhile_prefix _)).symm
    cases found : referent (o + 1) (referenceName t) with
    | error fault =>
      rw [found] at h
      cases h
    | ok c =>
      rw [found] at h
      cases more : resolveFrom total (o + 2 + Text.size (referenceName t)) rest with
      | error fault =>
        simp only [bind, Except.bind, more] at h
        cases h
      | ok w =>
        simp only [bind, Except.bind, more] at h
        exact ⟨_, rest, c, w, _, whole, mem_referenceName, found, more, (Except.ok.inj h).symm⟩
  · cases h

/-- What was resolved from any offset is what the text stands for.  On the length, since a
    reference is passed as a whole. -/
theorem resolves_of_resolveFrom {t : Text} :
    ∀ {total o : Nat} {v : Text}, resolveFrom total o t = .ok v → Resolves t v := by
  induction hn : t.length using Nat.strongRecOn generalizing t with
  | ind n ih =>
    intro total o v h
    cases t with
    | nil =>
      rw [resolveFrom] at h
      cases h
      exact .nil
    | cons c t =>
      by_cases amp : c = '&'
      · subst amp
        obtain ⟨name, rest, c, w, o', rfl, plain, found, more, rfl⟩ := of_resolveFrom_reference h
        refine .reference plain (referent_eq_ok found) (ih rest.length ?_ rfl more)
        rw [← hn, List.length_cons, List.length_append, List.length_cons]
        omega
      · obtain ⟨w, more, rfl⟩ := of_resolveFrom_cons amp h
        exact .cons amp (ih t.length (by rw [← hn, List.length_cons]; omega) rfl more)

/-- What a text stands for is what resolving gives, from any offset. -/
theorem Resolves.resolveFrom {t v : Text} (h : Resolves t v) :
    ∀ total o, resolveFrom total o t = .ok v := by
  induction h with
  | nil =>
    intro total o
    rw [Markup.resolveFrom]
  | cons plain _ ih =>
    intro total o
    rw [resolveFrom_cons plain, ih]
    rfl
  | @reference name rest v c plain found _ ih =>
    intro total o
    -- the recursion looks for the end of the name again, and finds the semicolon of the constructor
    rw [Markup.resolveFrom, if_pos rfl]
    have name_eq := referenceName_append plain rest
    split
    · next rest' dropped =>
      rw [name_eq, List.drop_left] at dropped
      obtain ⟨-, rfl⟩ := List.cons.inj dropped
      rw [name_eq, found, ih]
      rfl
    · next other =>
      rw [name_eq, List.drop_left] at other
      exact absurd rfl (other rest)

/-- **What a text stands for** is what resolving gives, with no word about offsets. -/
theorem resolve_eq_ok_iff {t v : Text} : resolve t = .ok v ↔ Resolves t v :=
  ⟨resolves_of_resolveFrom, fun h => h.resolveFrom _ _⟩

namespace Resolves

/-- Texts one behind the other stand for what they stand for, one behind the other. -/
theorem append {s t v w : Text} (h : Resolves s v) (h' : Resolves t w) : Resolves (s ++ t) (v ++ w) := by
  induction h with
  | nil => exact h'
  | cons plain _ ih => exact .cons plain ih
  | reference plain found _ ih =>
    rw [List.cons_append, List.append_assoc, List.cons_append]
    exact .reference plain found ih

/-- A text without `&` stands for itself. -/
theorem of_plain {t : Text} (h : ∀ c ∈ t, c ≠ '&') : Resolves t t := by
  induction t with
  | nil => exact .nil
  | cons c t ih =>
    exact .cons (h c List.mem_cons_self) (ih fun d hd => h d (List.mem_cons_of_mem _ hd))

/-- A text stands for one text, for resolving is a function. -/
theorem unique {t v w : Text} (h : Resolves t v) (h' : Resolves t w) : v = w :=
  Except.ok.inj ((resolve_eq_ok_iff.2 h).symm.trans (resolve_eq_ok_iff.2 h'))

/-- A piece without `&` at the front stands for itself, and the rest for the rest. -/
theorem split_front {s t v : Text} (plain : ∀ c ∈ s, c ≠ '&') (h : Resolves (s ++ t) v) :
    ∃ w, v = s ++ w ∧ Resolves t w := by
  induction s generalizing v with
  | nil => exact ⟨v, rfl, h⟩
  | cons c s ih =>
    rw [List.cons_append] at h
    generalize whole : s ++ t = u at h
    cases h with
    | cons _ more =>
      rw [← whole] at more
      obtain ⟨w, rfl, rest⟩ := ih (fun d hd => plain d (List.mem_cons_of_mem _ hd)) more
      exact ⟨w, rfl, rest⟩
    | reference => exact absurd rfl (plain _ List.mem_cons_self)

/-- A piece without `&` and `;` at the end stands for itself.  By induction on the whole text,
    with the cut at any place of it: a reference that began before the cut has to be closed before
    it too. -/
theorem split_back {u v : Text} (h : Resolves u v) :
    ∀ {t s : Text}, u = t ++ s → (∀ c ∈ s, c ≠ '&' ∧ c ≠ ';') → ∃ w, v = w ++ s ∧ Resolves t w := by
  induction h with
  | nil =>
    intro t s e _
    obtain ⟨rfl, rfl⟩ := List.append_eq_nil_iff.1 e.symm
    exact ⟨[], rfl, .nil⟩
  | @cons c u v plain more ih =>
    intro t s e no_mark
    cases t with
    | nil =>
      rw [List.nil_append] at e
      subst e
      have same := (Resolves.cons plain more).unique (of_plain fun d hd => (no_mark d hd).1)
      exact ⟨[], same, .nil⟩
    | cons d t =>
      obtain ⟨rfl, rfl⟩ := List.cons.inj e
      obtain ⟨w, rfl, rest⟩ := ih rfl no_mark
      exact ⟨c :: w, rfl, .cons plain rest⟩
  | @reference name rest v c plain found more ih =>
    intro t s e no_mark
    cases t with
    | nil =>
      rw [List.nil_append] at e
      exact absurd rfl (no_mark '&' (by rw [← e]; exact List.mem_cons_self)).1
    | cons d t =>
      obtain ⟨rfl, inner⟩ := List.cons.inj e
      -- the semicolon belongs to the front, for no semicolon stands in `s`
      rcases List.append_eq_append_iff.1 inner with ⟨x, rfl, tail⟩ | ⟨x, rfl, tail⟩
      · cases x with
        | nil =>
          rw [List.nil_append] at tail
          exact absurd rfl (no_mark ';' (by rw [← tail]; exact List.mem_cons_self)).2
        | cons d x =>
          obtain ⟨rfl, rfl⟩ := List.cons.inj tail
          obtain ⟨w, rfl, rest⟩ := ih rfl no_mark
          exact ⟨c :: w, rfl, .reference plain found rest⟩
      · refine absurd rfl (no_mark ';' ?_).2
        rw [tail]
        exact List.mem_append_right _ List.mem_cons_self

end Resolves

/-! ## Escaping -/

/-- **An escaped text** begins no tag, since a `<` was replaced and no replacement holds one. -/
theorem ne_mark_of_mem_escapeText {value : Text} {c : Char} (h : c ∈ escapeText value) : c ≠ '<' := by
  rintro rfl
  obtain ⟨x, -, hx⟩ := List.mem_flatMap.1 h
  unfold escapeTextChar at hx
  split at hx
  · exact absurd hx (by decide)
  · exact absurd hx (by decide)
  · exact absurd hx (by decide)
  · next other _ _ => exact other (List.mem_singleton.1 hx).symm

/-! ## Spaces -/

/-- Spaces are no part of a reference. -/
theorem ne_mark_of_isSpaces {t : Text} (h : Text.isSpaces t = true) :
    ∀ c ∈ t, c ≠ '&' ∧ c ≠ ';' := by
  intro c hc
  have := Text.isSpaces_iff.1 h c hc
  refine ⟨?_, ?_⟩ <;>
    · rintro rfl
      exact absurd this (by decide)

/-- **The trimmed text stands for what the text stands for**, without the spaces around it.  They
    are cut off behind first and then in front, as pieces without marks. -/
theorem Resolves.trim {t v : Text} (h : Resolves t v) :
    ∃ before w after, Text.isSpaces before = true ∧ Text.isSpaces after = true ∧
      t = before ++ Text.trim t ++ after ∧ v = before ++ w ++ after ∧ Resolves (Text.trim t) w := by
  obtain ⟨before, after, hb, ha, whole⟩ := Text.eq_trim t
  -- first the spaces behind are taken off, then those in front
  obtain ⟨w, rfl, front⟩ := h.split_back whole (ne_mark_of_isSpaces ha)
  obtain ⟨w, rfl, inner⟩ := front.split_front fun c hc => (ne_mark_of_isSpaces hb c hc).1
  exact ⟨before, w, after, hb, ha, whole, rfl, inner⟩

/-- A text of spaces that is trimmed is empty. -/
theorem isSpaces_eq_nil {t : Text} (h : Text.isSpaces t = true) (trimmed : Text.trim t = t) :
    t = [] := by rw [← trimmed, Text.trim_of_isSpaces h]

/-- **A text that stands for a trimmed one is trimmed**: a space around it would stand for itself,
    at an end of what it stands for. -/
theorem Resolves.trim_eq_self {t v : Text} (h : Resolves t v) (trimmed : Text.trim v = v) :
    Text.trim t = t := by
  obtain ⟨before, w, after, hb, ha, whole, rfl, -⟩ := h.trim
  have no_before : before = [] := by
    cases before with
    | nil => rfl
    | cons c before =>
      have head : c :: before ++ w ++ after = c :: (before ++ w ++ after) := rfl
      have := Text.isSpace_head_of_trim trimmed head
      rw [Text.isSpaces_iff.1 hb c List.mem_cons_self] at this
      cases this
  have no_after : after = [] := by
    rcases List.eq_nil_or_concat after with rfl | ⟨front, c, rfl⟩
    · rfl
    · have last : before ++ w ++ front.concat c = before ++ w ++ front ++ [c] := by simp
      have := Text.isSpace_last_of_trim trimmed last
      rw [Text.isSpaces_iff.1 ha c (by simp)] at this
      cases this
  rw [no_before, no_after, List.nil_append, List.append_nil] at whole
  exact whole.symm

/-- The same where references at fault stand for themselves. -/
theorem trim_eq_self_of_resolveOrSame {t : Text}
    (trimmed : Text.trim (resolveOrSame t) = resolveOrSame t) : Text.trim t = t := by
  unfold resolveOrSame at trimmed
  cases read : resolve t with
  | ok v =>
    rw [read] at trimmed
    exact (resolve_eq_ok_iff.1 read).trim_eq_self trimmed
  | error fault =>
    rw [read] at trimmed
    exact trimmed

theorem resolveOrSame_eq {t v : Text} (h : Resolves t v) : resolveOrSame t = v := by
  rw [resolveOrSame, resolve_eq_ok_iff.2 h]

theorem resolveOrSame_of_isSpaces {t : Text} (h : Text.isSpaces t = true) : resolveOrSame t = t :=
  resolveOrSame_eq (.of_plain fun c hc => (ne_mark_of_isSpaces h c hc).1)

end XmlGraft.Markup
