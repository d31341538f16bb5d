/-
  Quoted — a text as a literal: between quotation marks, on one line, every character visible.

  The quotation mark, the backslash and four controls have escapes of their own; whatever else is
  not printable is written by its code point.
-/
import XmlGraft.Text.Basic
import XmlGraft.Text.Printable

namespace XmlGraft.Text

/-- A character by its code point, in lower-case hexadecimal digits. -/
def codePointEscape (c : Char) : Text :=
  ['\\', 'u', '{'] ++ Nat.toDigits 16 c.toNat ++ ['}']

/-- A character inside a literal. -/
def quotedChar (c : Char) : Text :=
  match c with
  | '"' => ['\\', '"']
  | '\\' => ['\\', '\\']
  | '\t' => ['\\', 't']
  | '\n' => ['\\', 'n']
  | '\r' => ['\\', 'r']
  | c =>
    if c.toNat = 0 then ['\\', '0']
    else if isPrintable c then [c]
    else codePointEscape c

/-- **The text as a literal.** -/
def quoted (t : Text) : Text := '"' :: t.flatMap quotedChar ++ ['"']

end XmlGraft.Text
