/-
  Lines as a reader sees them.

  A reader's lines end in any of the characters that Unicode lets end one; a carriage return and
  the line feed after it end a line together.  A line keeps what ends it, so that the lines of a
  text, one after the other, are the text.  After a final line end there is no further line.

  * `Text.lines`       the lines
  * `Text.lineAt?`     the line that a character stands in
-/
import XmlGraft.Text.Basic

namespace XmlGraft.Text

/-- The characters that end a line: LF, VT, FF, CR, NEL, LS and PS. -/
def endsLine (c : Char) : Bool :=
  ['\n', '\x0B', '\x0C', '\r', '\u0085', '\u2028', '\u2029'].contains c

/-- One more character in front of the first line. -/
def consLine (c : Char) : List Text → List Text
  | [] => [[c]]
  | line :: rest => (c :: line) :: rest

/-- **The lines of a text**, each with what ends it. -/
def lines : Text → List Text
  | [] => []
  | '\r' :: '\n' :: t => ['\r', '\n'] :: lines t
  | c :: t => if endsLine c then [c] :: lines t else consLine c (lines t)

@[simp] theorem flatten_consLine (c : Char) (ls : List Text) :
    (consLine c ls).flatten = c :: ls.flatten := by
  cases ls <;> rfl

/-- The lines, one after the other, are the text. -/
theorem flatten_lines (t : Text) : (lines t).flatten = t := by
  fun_induction lines t with
  | case1 => rfl
  | case2 t ih => simp [ih]
  | case3 c t _ _ ih => simp [ih]
  | case4 c t _ _ ih => simp [ih]

/-- **A place in a text**: row and column, both counted from 0, and the line itself. -/
structure Place where
  row : Nat
  column : Nat
  line : Text
  deriving DecidableEq, Repr

/-- The place of the character with index `n` in a list of lines.  What lies past the last line
    still belongs to it; where there is no line there is no place. -/
def lineAt? : List Text → Nat → Option Place
  | [], _ => none
  | [line], n => some ⟨0, n, line⟩
  | line :: next :: rest, n =>
    if n < line.length then some ⟨0, n, line⟩
    else (lineAt? (next :: rest) (n - line.length)).map fun p => { p with row := p.row + 1 }

/-- There is a place exactly where there is a line. -/
theorem lineAt?_isSome (ls : List Text) (n : Nat) : (lineAt? ls n).isSome = !ls.isEmpty := by
  fun_induction lineAt? ls n with
  | case1 => rfl
  | case2 => rfl
  | case3 => rfl
  | case4 _ _ _ _ _ ih => simpa using ih

end XmlGraft.Text
