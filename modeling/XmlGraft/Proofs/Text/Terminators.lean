/-
  Terminators — texts whose lines all end in one way.

  An update writes new lines between the old ones.  That a file does not end up with two kinds of
  line ends rests on what is said here about one text, whatever it is a piece of; the modules on
  edits and on the graft take it from piece to piece.

  1. **Returned lines** (`Returned`): each line feed stands directly behind a carriage return.  As a
     chain over neighbours it can be decided, and `returned_iff` says it by what stands before any
     line feed.

  2. **Seamless properties** (`Seamless`): that lines end in CRLF, and that there is no carriage
     return, are properties which a text has when its pieces have them.  The pieces have them in
     turn, unless the text was cut between a return and its feed (`Untorn`).  All that the later
     modules need (pieces, lines, trimmed texts, replaced characters) is proved once for both, from
     the four fields.

  3. **The dominant ending** (`dominantEnding_of_returned`, `dominantEnding_of_noReturn`) is the one
     that all lines have.  The count goes by the recursion of `occurrences`, which passes the two
     characters of a CRLF together; where lines are returned, it passes each line feed that way.
-/
import Mathlib.Data.List.Chain
import XmlGraft.Proofs.Text.Splitting
import XmlGraft.Source.Basic

namespace XmlGraft

namespace Text

/-! ## Returned lines -/

/-- **Every line feed is directly preceded by a carriage return.** -/
def Returned (t : Text) : Prop :=
  t.head? ≠ some '\n' ∧ t.IsChain fun a b => b = '\n' → a = '\r'

instance (t : Text) : Decidable (Returned t) := inferInstanceAs (Decidable (_ ∧ _))

/-- **Returned lines**, by any line feed and what stands before it: a text cannot begin with one,
    and two neighbours are never another character and a feed. -/
theorem returned_iff {t : Text} :
    Returned t ↔ ∀ before after, t = before ++ '\n' :: after → before.getLast? = some '\r' := by
  constructor
  · rintro ⟨first, chain⟩ before after rfl
    -- with nothing before it, the feed would be the first character
    cases last : before.getLast? with
    | none =>
      rw [List.getLast?_eq_none_iff.1 last] at first
      exact absurd rfl first
    | some c =>
      obtain ⟨-, -, meet⟩ := List.isChain_append.1 chain
      rw [meet c last '\n' rfl rfl]
  · intro h
    refine ⟨fun first => ?_, List.isChain_iff_forall_rel_of_append_cons_cons.2 ?_⟩
    · obtain ⟨after, rfl⟩ := List.head?_eq_some_iff.1 first
      cases h [] after rfl
    · rintro a b before after rfl rfl
      have last := h (before ++ [a]) after (by simp)
      rw [List.getLast?_concat] at last
      exact Option.some.inj last

/-! ## Seamless properties -/

/-- No character of a line end. -/
def Unbroken (t : Text) : Prop := ∀ c ∈ t, c ≠ '\n' ∧ c ≠ '\r'

-- over the characters of the text; instance search may find the one over all characters first
instance (t : Text) : Decidable (Unbroken t) :=
  List.decidableBAll (fun c => c ≠ '\n' ∧ c ≠ '\r') t

theorem Unbroken.append {s t : Text} (hs : Unbroken s) (ht : Unbroken t) : Unbroken (s ++ t) :=
  List.forall_mem_append.2 ⟨hs, ht⟩

/-- Two texts that do not meet between a carriage return and its line feed. -/
def Untorn (s t : Text) : Prop := s.getLast? = some '\r' → t.head? ≠ some '\n'

theorem untorn_of_last {s t : Text} {c : Char} (last : s.getLast? = some c) (other : c ≠ '\r') :
    Untorn s t := fun isReturn => by
  rw [last] at isReturn
  exact absurd (Option.some.inj isReturn) other

theorem untorn_of_head {s t : Text} (other : t.head? ≠ some '\n') : Untorn s t := fun _ => other

/-- **A property of line ends**: texts without any have it, a text has it when its pieces do, and a
    piece has it when the text does, unless a line end was torn. -/
structure Seamless (P : Text → Prop) : Prop where
  plain : ∀ {t : Text}, Unbroken t → P t
  append : ∀ {s t : Text}, P s → P t → P (s ++ t)
  front : ∀ {s t : Text}, P (s ++ t) → P s
  back : ∀ {s t : Text}, P (s ++ t) → Untorn s t → P t

/-- **That all lines end in CRLF** is such a property.  Two such texts meet well: the second does
    not begin with a feed, which would be without its return. -/
theorem seamless_returned : Seamless Returned where
  plain {t} h := by
    refine ⟨fun first => (h '\n' (List.mem_of_head? first)).1 rfl, ?_⟩
    refine List.isChain_iff_forall_rel_of_append_cons_cons.2 ?_
    rintro a b before after rfl rfl
    exact absurd rfl (h '\n' (by simp)).1
  append {s t} hs ht := by
    -- where the texts meet, the second begins with no feed
    refine ⟨fun first => ?_, List.isChain_append.2 ⟨hs.2, ht.2, fun a _ b hb feed => ?_⟩⟩
    · cases s with
      | nil => exact ht.1 first
      | cons c s => exact hs.1 first
    · rw [feed] at hb
      exact absurd hb ht.1
  front {s t} h := by
    refine ⟨fun first => h.1 ?_, (List.isChain_append.1 h.2).1⟩
    rw [List.head?_append, first]
    rfl
  back {s t} h untorn := by
    refine ⟨fun first => ?_, (List.isChain_append.1 h.2).2.1⟩
    -- the feed at the front stands behind the last character in front of it, which is its return
    obtain ⟨after, rfl⟩ := List.head?_eq_some_iff.1 first
    exact untorn (returned_iff.1 h s after rfl) rfl

/-- **That there is no carriage return** is such a property, for it is one of each character. -/
theorem seamless_noReturn : Seamless fun t => '\r' ∉ t where
  plain h isReturn := (h '\r' isReturn).2 rfl
  append hs ht isReturn := (List.mem_append.1 isReturn).elim hs ht
  front h isReturn := h (List.mem_append_left _ isReturn)
  back h _ isReturn := h (List.mem_append_right _ isReturn)

namespace Seamless

variable {P : Text → Prop}

theorem nil (h : Seamless P) : P [] := h.plain (List.forall_mem_nil _)

/-- Texts one behind the other have the property when each has it. -/
theorem flatMap (h : Seamless P) {α : Type} {as : List α} {g : α → Text} (each : ∀ a ∈ as, P (g a)) :
    P (as.flatMap g) := by
  induction as with
  | nil => exact h.nil
  | cons a as ih =>
    rw [List.forall_mem_cons] at each
    exact h.append each.1 (ih each.2)

/-- A piece that does not begin with a line feed, since only there a line end could have been
    torn. -/
theorem piece (h : Seamless P) {s t : Text} (whole : P t) (inside : s <:+: t)
    (other : s.head? ≠ some '\n') : P s := by
  obtain ⟨before, after, rfl⟩ := inside
  cases s with
  | nil => exact h.nil
  | cons c s =>
    rw [List.append_assoc] at whole
    exact h.front (h.back whole (untorn_of_head other))

/-- A piece without line feeds, such as a line or a name of the text. -/
theorem line (h : Seamless P) {s t : Text} (whole : P t) (inside : s <:+: t) (no_feed : '\n' ∉ s) :
    P s := h.piece whole inside fun first => no_feed (List.mem_of_head? first)

/-- **A trimmed text**: what is left begins with no space, so that no line end was torn. -/
theorem trim (h : Seamless P) {t : Text} (whole : P t) : P (trim t) := by
  obtain ⟨before, after, -, -, split⟩ := eq_trim t
  refine h.piece whole ⟨before, after, split.symm⟩ fun first => ?_
  obtain ⟨rest, shape⟩ := List.head?_eq_some_iff.1 first
  exact absurd (isSpace_head_of_trim (trim_trim t) shape) (by decide)

/-- **Characters replaced by others**, none of a line end among them.  By induction on what is
    still to be replaced, behind a front that is done; a character of a line end moves to the
    front as it is, so that no line end is torn on the way. -/
theorem replaced (h : Seamless P) {g : Char → Text}
    (keeps : ∀ c, g c = [c] ∨ Unbroken [c] ∧ Unbroken (g c)) {s t : Text} (whole : P (s ++ t)) :
    P (s ++ t.flatMap g) := by
  induction t generalizing s with
  | nil => exact whole
  | cons c t ih =>
    rw [List.flatMap_cons]
    rcases keeps c with same | ⟨plain, plain'⟩
    · rw [same, ← List.append_assoc]
      exact ih (by simpa using whole)
    · -- neither the character nor what stands for it belongs to a line end
      have last : (s ++ [c]).getLast? = some c := List.getLast?_concat
      have whole' : P ((s ++ [c]) ++ t) := by simpa using whole
      have rest : P t := h.back whole' (untorn_of_last last (plain c List.mem_cons_self).2)
      exact h.append (h.front whole) (h.append (h.plain plain') (ih (s := []) rest))

end Seamless

/-! ## The dominant ending -/

/-- Where all lines are returned, there are as many CRLF as line feeds: each feed is counted with
    the return in front of it, and none is met alone. -/
theorem Returned.occurrences {t : Text} (h : Returned t) :
    occurrences ['\r', '\n'] t = t.count '\n' := by
  fun_induction Text.occurrences ['\r', '\n'] t with
  | case1 nothing => cases nothing
  | case2 nothing => rfl
  | case3 c t nothing => cases nothing
  | case4 c t _ begins ih =>
    obtain ⟨rest, shape⟩ := List.isPrefixOf_iff_prefix.1 begins
    obtain ⟨rfl, rfl⟩ := List.cons.inj shape
    have behind : Returned rest :=
      seamless_returned.back (s := ['\r', '\n']) h (untorn_of_last rfl (by decide))
    have inner : Text.occurrences ['\r', '\n'] rest = rest.count '\n' := ih behind
    show Text.occurrences ['\r', '\n'] rest + 1 = ('\r' :: '\n' :: rest).count '\n'
    rw [inner, List.count_cons_of_ne (by decide), List.count_cons_self]
  | case5 c t _ other ih =>
    have feed : c ≠ '\n' := fun feed => h.1 (by rw [feed]; rfl)
    -- no feed stands next, for it would need this character as its return
    have untorn : Untorn [c] t := by
      rintro isReturn first
      obtain ⟨rest, rfl⟩ := List.head?_eq_some_iff.1 first
      cases isReturn
      exact other rfl
    rw [ih (seamless_returned.back (s := [c]) h untorn), List.count_cons_of_ne feed]

end Text

open Text

/-- **The dominant ending of returned lines** is CRLF: no feed is left that is not part of one. -/
theorem dominantEnding_of_returned {t : Text} (h : Returned t) (feed : '\n' ∈ t) :
    dominantEnding t = ['\r', '\n'] := by
  have some_feed : 0 < t.count '\n' := List.count_pos_iff.2 feed
  rw [dominantEnding, h.occurrences]
  exact if_pos (by omega)

/-- **Where there is no carriage return**, lines end in a line feed, for no CRLF is counted. -/
theorem dominantEnding_of_noReturn {t : Text} (h : '\r' ∉ t) : dominantEnding t = ['\n'] := by
  have none : occurrences ['\r', '\n'] t = 0 := by
    fun_induction Text.occurrences ['\r', '\n'] t with
    | case1 nothing => cases nothing
    | case2 nothing => rfl
    | case3 c t nothing => cases nothing
    | case4 c t _ begins ih =>
      obtain ⟨rest, shape⟩ := List.isPrefixOf_iff_prefix.1 begins
      obtain ⟨rfl, -⟩ := List.cons.inj shape
      exact absurd List.mem_cons_self h
    | case5 c t _ other ih => exact ih fun isReturn => h (List.mem_cons_of_mem _ isReturn)
  rw [dominantEnding, none]
  exact if_neg (by omega)

end XmlGraft
