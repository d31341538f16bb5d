/-
  Callout — the line of a document that a fault in its data comes from.

  A message is told under its line, with marks below the stretch that is at fault:

      TOML parse error at line 2, column 1
        |
      2 | colour = "red"
        | ^^^^^^
      unknown field `colour`, expected one of `indent_unit`, ...

  The fault is in a name or in a value, to which names lead from the root table.  A value that is
  written nowhere, such as a table that dotted keys made, is shown by the value that it is part
  of; if none of these is written anywhere, by the first name.

  * `Entries.extentAt?`   where in the document something is written
  * `Callout.ofExtent`    the first line of an extent
  * `Callout.under`       a message under its line
-/
import XmlGraft.Toml.Document

namespace XmlGraft.Toml

/-! ## Extents -/

/-- The entries that an item has as a table. -/
def Item.entries : Item → Entries
  | .table _ _ entries => entries
  | _ => []

namespace Entries

/-- The extent of the last of the names that lead to an entry. -/
def nameExtent? (entries : Entries) : List Text → Option Extent
  | [] => none
  | [name] => (entries.entry? name).map (·.1.extent)
  | name :: names => (entries.get? name).bind fun item => nameExtent? item.entries names

/-- The extent of the item that names lead to, or of the smallest one around it that has any. -/
def itemExtent? (entries : Entries) : List Text → Option Extent
  | [] => none
  | name :: names =>
    (entries.get? name).bind fun item => itemExtent? item.entries names <|> item.extent?

/-- **Where something is written** to which names lead. -/
def extentAt? (entries : Entries) : Whereabouts → Option Extent
  | .name path => entries.nameExtent? path
  | .value path => entries.itemExtent? path <|> entries.nameExtent? (path.take 1)

end Entries

/-! ## Callouts -/

/-- **Callout**: a line of a document with a stretch of it marked. -/
structure Callout where
  /-- The row of the line, counted from 0. -/
  row : Nat
  /-- How many characters of the line stand before the stretch. -/
  column : Nat
  /-- How many marks the stretch gets. -/
  marks : Nat
  line : Text
  deriving DecidableEq, Repr

namespace Callout

/-- **The first line of an extent**; only what stands on it is marked. -/
def ofExtent (doc : Text) (extent : Extent) : Callout :=
  let before := doc.take (doc.length - extent.start)
  let stretch := (doc.drop before.length).take (extent.start - extent.stop)
  let head := (before.reverse.takeWhile (· != '\n')).reverse
  let line : Text := head ++ (doc.drop before.length).takeWhile (· != '\n')
  { row := before.count '\n'
    column := head.length
    marks := min (Text.size stretch) (line.size - head.length)
    line }

/-- The number of the line, counted from 1. -/
def number (c : Callout) : String := toString (c.row + 1)

/-- Blanks. -/
def blanks (n : Nat) : String := String.ofList (List.replicate n ' ')

/-- **A message under its line.** -/
def under (c : Callout) (message : String) : String :=
  let margin := blanks (c.number.length + 1) ++ "|"
  String.intercalate "\n"
    [ s!"TOML parse error at line {c.number}, column {c.column + 1}",
      margin,
      c.number ++ " | " ++ String.ofList c.line,
      margin ++ blanks (c.column + 1) ++ String.ofList (List.replicate (max 1 c.marks) '^'),
      message,
      "" ]

end Callout

end XmlGraft.Toml
