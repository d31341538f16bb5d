/-
  Json — data as indented JSON.

  Every item of a list and every entry of a table has a line of its own, two blanks further in than
  what it stands in; what is empty stays on one line.

  * `Data.json`  data as a JSON text
-/
import XmlGraft.Data.Basic

namespace XmlGraft.Data

/-- A character inside a JSON string: quotation marks, backslashes and controls are escaped. -/
def jsonChar (c : Char) : Text :=
  match c with
  | '"' => ['\\', '"']
  | '\\' => ['\\', '\\']
  | '\n' => ['\\', 'n']
  | '\r' => ['\\', 'r']
  | '\t' => ['\\', 't']
  | '\x08' => ['\\', 'b']
  | '\x0C' => ['\\', 'f']
  | c =>
    if c.toNat < 0x20 then
      ['\\', 'u', '0', '0', Nat.digitChar (c.toNat / 16), Nat.digitChar (c.toNat % 16)]
    else [c]

/-- A JSON string. -/
def jsonString (t : Text) : Text := '"' :: t.flatMap jsonChar ++ ['"']

/-- A new line at a depth. -/
def jsonBreak (depth : Nat) : Text := '\n' :: List.replicate (2 * depth) ' '

/-- Lines between brackets; each is one level further in than the brackets. -/
def jsonBlock (depth : Nat) (opening closing : Char) (lines : List Text) : Text :=
  if lines.isEmpty then [opening, closing]
  else
    [opening] ++ Text.join [','] (lines.map (jsonBreak (depth + 1) ++ ·)) ++ jsonBreak depth
      ++ [closing]

mutual

/-- Data at a depth. -/
def jsonAt (depth : Nat) : Data → Text
  | null => ['n', 'u', 'l', 'l']
  | truth true => ['t', 'r', 'u', 'e']
  | truth false => ['f', 'a', 'l', 's', 'e']
  | integer value => (toString value).toList
  | number shown => shown
  | text value => jsonString value
  | date => ['n', 'u', 'l', 'l']
  | list items => jsonBlock depth '[' ']' (jsonItems (depth + 1) items)
  | table entries => jsonBlock depth '{' '}' (jsonEntries (depth + 1) entries)

/-- The items of a list. -/
def jsonItems (depth : Nat) : List Data → List Text
  | [] => []
  | d :: items => jsonAt depth d :: jsonItems depth items

/-- The entries of a table. -/
def jsonEntries (depth : Nat) : List (Text × Data) → List Text
  | [] => []
  | (name, d) :: entries =>
    (jsonString name ++ [':', ' '] ++ jsonAt depth d) :: jsonEntries depth entries

end

/-- **Data as a JSON text.** -/
def json (d : Data) : Text := jsonAt 0 d

end XmlGraft.Data
