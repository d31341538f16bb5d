/-
  IndentUnit — one level of indentation: a run of spaces or a run of tabs.

  A unit is a filler and how often it stands for one level.  The indentation of a depth is that many
  units, one behind the other, and so again a run of the filler.

  * `IndentUnit.ofText?`  the unit that a literal stands for
  * `IndentUnit.indent`   the indentation of a depth

  A literal of both fillers is no unit, and neither is the empty one: nothing could be told from the
  depth then.
-/
import XmlGraft.Text.Basic

namespace XmlGraft

/-- What indentation is made of. -/
inductive Filler
  | space
  | tab
  deriving DecidableEq, Repr

/-- The character. -/
def Filler.char : Filler → Char
  | space => ' '
  | tab => '\t'

/-- **Indent unit**: how often the filler stands for one level. -/
structure IndentUnit where
  filler : Filler
  width : Nat
  deriving DecidableEq, Repr

namespace IndentUnit

/-- The unit used where nothing else is said: four spaces. -/
def standard : IndentUnit := ⟨.space, 4⟩

/-- The unit a literal stands for: a run, not empty, of spaces alone or of tabs alone. -/
def ofText? (t : Text) : Option IndentUnit :=
  match t with
  | ' ' :: _ => if t.all (· == ' ') then some ⟨.space, t.length⟩ else none
  | '\t' :: _ => if t.all (· == '\t') then some ⟨.tab, t.length⟩ else none
  | _ => none

/-- **The indentation of a depth.** -/
def indent (u : IndentUnit) (depth : Nat) : Text := List.replicate (u.width * depth) u.filler.char

/-- The unit as text: one level. -/
def text (u : IndentUnit) : Text := u.indent 1

@[simp] theorem indent_zero (u : IndentUnit) : u.indent 0 = [] := by simp [indent]

theorem indent_add (u : IndentUnit) (m n : Nat) : u.indent (m + n) = u.indent m ++ u.indent n := by
  simp [indent, Nat.mul_add, List.replicate_append_replicate]

/-- A unit of positive width is read back from its text. -/
theorem ofText?_text {u : IndentUnit} (h : 0 < u.width) : ofText? u.text = some u := by
  obtain ⟨filler, width⟩ := u
  obtain ⟨n, rfl⟩ := Nat.exists_eq_succ_of_ne_zero (Nat.pos_iff_ne_zero.1 h)
  cases filler <;> simp [text, indent, Filler.char, List.replicate_succ, ofText?]

/-- A run of a filler is the text of the unit that counts it. -/
theorem text_of_all {t : Text} {filler : Filler} (same : t.all (· == filler.char) = true) :
    text ⟨filler, t.length⟩ = t := by
  rw [text, indent, Nat.mul_one]
  exact (List.eq_replicate_of_mem fun c hc => by
    simpa using List.all_eq_true.1 same c hc).symm

/-- A literal that stands for a unit is the text of it. -/
theorem text_of_ofText? {t : Text} {u : IndentUnit} (h : ofText? t = some u) : u.text = t := by
  unfold ofText? at h
  split at h
  · split at h
    · next same => cases h; exact text_of_all same
    · cases h
  · split at h
    · next same => cases h; exact text_of_all same
    · cases h
  · cases h

end IndentUnit

end XmlGraft
