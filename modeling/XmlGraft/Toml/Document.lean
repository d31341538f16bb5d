/-
  Document — a TOML document as a table.

  Values are read with the bound on nesting as fuel.  Tables are put together as the document goes
  along, and remember how they came about, because that decides what may still be added: a table
  with a header of its own is complete when its lines end, one that dotted keys made takes more
  keys from dotted keys alone, and one that only stands on the way to another may still get its
  header.  Names and values keep the extent in which they are written; a table that has neither
  header nor braces is written nowhere.

  * `item?`        a value with the rest
  * `parse`        a document
  * `entriesData`  the entries of a table as data
-/
import XmlGraft.Toml.Scalar

namespace XmlGraft.Toml

/-! ## Tables -/

/-- **How a table came about.** -/
inductive Made
  /-- By a header. -/
  | headed
  /-- By braces. -/
  | braced
  /-- On the way to a table with a header. -/
  | onTheWay
  /-- By dotted keys. -/
  | byDots
  deriving DecidableEq, Repr

/-- **Item**: what a name stands for. -/
inductive Item
  | scalar (data : Data) (extent : Extent)
  | list (items : List Item) (extent : Extent)
  | table (made : Made) (extent : Option Extent) (entries : List (Name × Item))
  /-- The tables under a header in double brackets with their extents, the last one first. -/
  | tables (rows : List (Extent × List (Name × Item)))
  deriving Repr

/-- The entries of a table. -/
abbrev Entries := List (Name × Item)

namespace Entries

/-- The entry of a name. -/
def entry? (entries : Entries) (name : Text) : Option (Name × Item) :=
  entries.find? fun e => e.1.text == name

/-- What a name stands for. -/
def get? (entries : Entries) (name : Text) : Option Item := (entries.entry? name).map (·.2)

/-- Put an item in the place of the entry of a name, or behind the others. -/
def place (name : Name) (item : Item) : Entries → Entries
  | [] => [(name, item)]
  | (n, i) :: entries =>
    if n.text = name.text then (n, item) :: entries else (n, i) :: place name item entries

/-- Add an item under a dotted key to a table. -/
def addDotted (entries : Entries) (item : Item) : List Name → Option Entries
  | [] => none
  | [name] => if (entries.get? name.text).isSome then none else some (entries ++ [(name, item)])
  | name :: more :: names =>
    let inTable (made : Made) (inner : Entries) (rebuild : Entries → Item) : Option Entries :=
      if names.isEmpty && made ≠ .byDots then none
      else (addDotted inner item (more :: names)).map fun inner =>
        place name (rebuild inner) entries
    match entries.get? name.text with
    | none => inTable .byDots [] (.table .byDots none)
    | some (.table .headed ..) | some (.table .braced ..) => none
    | some (.table made extent inner) => inTable made inner (.table made extent)
    | some (.tables ((extent, row) :: rows)) =>
      inTable .headed row fun row => .tables ((extent, row) :: rows)
    | some _ => none

/-- Change the table that the names of a header lead to; tables that are not there are made. -/
def onTheWay (change : Entries → Option Entries) (entries : Entries) : List Name → Option Entries
  | [] => change entries
  | name :: names =>
    match entries.get? name.text with
    | none =>
      (onTheWay change [] names).map fun inner => place name (.table .onTheWay none inner) entries
    | some (.table .braced ..) => none
    | some (.table made extent inner) =>
      (onTheWay change inner names).map fun inner =>
        place name (.table made extent inner) entries
    | some (.tables ((extent, row) :: rows)) =>
      (onTheWay change row names).map fun row =>
        place name (.tables ((extent, row) :: rows)) entries
    | some _ => none

/-- A table with a header: `fill` gets the entries that it has already.  A table that stood on the
    way to others moves behind its neighbours. -/
def openTable (extent : Extent) (fill : Entries → Option Entries) (name : Name)
    (entries : Entries) : Option Entries :=
  match entries.get? name.text with
  | none => (fill []).map fun inner => entries ++ [(name, .table .headed extent inner)]
  | some (.table .onTheWay _ inner) =>
    (fill inner).map fun inner =>
      entries.filter (·.1.text != name.text) ++ [(name, .table .headed extent inner)]
  | some _ => none

/-- One more table under a header in double brackets. -/
def openRow (extent : Extent) (fill : Entries → Option Entries) (name : Name) (entries : Entries) :
    Option Entries :=
  match entries.get? name.text with
  | none => (fill []).map fun row => entries ++ [(name, .tables [(extent, row)])]
  | some (.tables rows) =>
    (fill []).map fun row => place name (.tables ((extent, row) :: rows)) entries
  | some _ => none

end Entries

mutual

/-- The item as data. -/
def Item.data : Item → Data
  | .scalar d _ => d
  | .list items _ => .list (itemsData items)
  | .table _ _ entries => .table (entriesData entries)
  | .tables rows => .list (rowsData rows).reverse

/-- The items as data. -/
def itemsData : List Item → List Data
  | [] => []
  | item :: items => item.data :: itemsData items

/-- The entries as data. -/
def entriesData : List (Name × Item) → List (Text × Data)
  | [] => []
  | (name, item) :: entries => (name.text, item.data) :: entriesData entries

/-- The rows as data. -/
def rowsData : List (Extent × List (Name × Item)) → List Data
  | [] => []
  | (_, row) :: rows => .table (entriesData row) :: rowsData rows

end

/-- The extent of an item: tables under a header in double brackets go from the first to the
    last. -/
def Item.extent? : Item → Option Extent
  | .scalar _ extent | .list _ extent => some extent
  | .table _ extent _ => extent
  | .tables rows => do
    let (first, _) ← rows.getLast?
    let (last, _) ← rows.head?
    return ⟨first.start, last.stop⟩

/-! ## Values -/

/-- Items with commas between them, up to the bracket; a comma may follow the last one. -/
def items? (read : Reader Item) (fuel : Nat) : Reader (List Item) := fun t =>
  match fuel with
  | 0 => none
  | fuel + 1 => do
    let t ← skipLines t.length t
    match t with
    | ']' :: t => return ([], t)
    | t =>
      let (item, t) ← read t
      let t ← skipLines t.length t
      match t with
      | ',' :: t =>
        let (items, t) ← items? read fuel t
        return (item :: items, t)
      | ']' :: t => return ([item], t)
      | _ => none

/-- Keys with values and commas between them, up to the brace. -/
def pairs? (read : Reader Item) (fuel : Nat) (entries : Entries) : Reader Entries := fun t =>
  match fuel with
  | 0 => none
  | fuel + 1 => do
    let (key, t) ← key? t
    let (item, t) ← read (skipBlanks (← after? '=' t))
    let entries ← entries.addDotted item key
    match skipBlanks t with
    | ',' :: t => pairs? read fuel entries t
    | '}' :: t => return (entries, t)
    | _ => none

/-- A value that has no parts. -/
def scalar? (t : Text) : Option (Item × Text) :=
  let read : Option (Data × Text) :=
    match t with
    | '"' :: _ | '\'' :: _ => (text? t).map fun (value, rest) => (.text value, rest)
    | t => plain? t
  read.map fun (data, rest) => (.scalar data (.between t rest), rest)

/-- **A value**, nested no deeper than `depth`. -/
def item? (depth : Nat) : Reader Item := fun t =>
  match t, depth with
  | '[' :: _, 0 => none
  | '{' :: _, 0 => none
  | '[' :: inside, depth + 1 =>
    (items? (item? depth) (inside.length + 1) inside).map fun (items, rest) =>
      (.list items (.between t rest), rest)
  | '{' :: inside, depth + 1 =>
    match skipBlanks inside with
    | '}' :: rest => some (.table .braced (Extent.between t rest) [], rest)
    | inside =>
      (pairs? (item? depth) (inside.length + 1) [] inside).map fun (entries, rest) =>
        (.table .braced (Extent.between t rest) entries, rest)
  | t, _ => scalar? t

/-! ## Documents -/

/-- A key with what it stands for. -/
abbrev Pair := List Name × Item

/-- **Header**: whose lines follow. -/
structure Header where
  names : List Name
  /-- Is it written in double brackets? -/
  isRow : Bool
  extent : Extent
  deriving Repr

/-- What a line says. -/
inductive Line
  | nothing
  | header (header : Header)
  | pair (pair : Pair)
  deriving Repr

/-- A line with the rest behind its end. -/
def line? (t : Text) : Option (Line × Text) :=
  match t with
  | '[' :: '[' :: inside => do
    let (names, rest) ← key? inside
    let rest ← after? ']' rest >>= after? ']'
    return (.header ⟨names, true, .between t rest⟩, ← finishLine? rest)
  | '[' :: inside => do
    let (names, rest) ← key? inside
    let rest ← after? ']' rest
    return (.header ⟨names, false, .between t rest⟩, ← finishLine? rest)
  | '\n' :: _ | '\r' :: _ | '#' :: _ => (finishLine? t).map (.nothing, ·)
  | t => do
    let (key, t) ← key? t
    let (item, t) ← item? (depthLimit - 1) (skipBlanks (← after? '=' t))
    return (.pair (key, item), ← finishLine? t)

/-- The lines of a document. -/
def lines (fuel : Nat) (t : Text) : Option (List Line) :=
  match fuel, skipBlanks t with
  | _, [] => some []
  | 0, _ => none
  | fuel + 1, t => do
    let (line, t) ← line? t
    return line :: (← lines fuel t)

/-- Add keys with their values to a table. -/
def fill (pairs : List Pair) (entries : Entries) : Option Entries :=
  pairs.foldlM (fun entries (key, item) => entries.addDotted item key) entries

/-- The extent of a table with a header: up to the end of its last value. -/
def Header.extentWith (header : Header) (pairs : List Pair) : Extent :=
  match pairs.getLast?.bind (·.2.extent?) with
  | some last => ⟨header.extent.start, last.stop⟩
  | none => header.extent

/-- A header with the lines under it. -/
def addSection (root : Entries) (header : Header) (pairs : List Pair) : Option Entries := do
  let name ← header.names.getLast?
  let extent := header.extentWith pairs
  let add := if header.isRow then Entries.openRow extent (fill pairs) name
    else Entries.openTable extent (fill pairs) name
  root.onTheWay add header.names.dropLast

/-- The keys and values up to the next header, and the lines from there on. -/
def pairsOf : List Line → List Pair × List Line
  | .nothing :: lines => pairsOf lines
  | .pair pair :: lines =>
    let (pairs, rest) := pairsOf lines
    (pair :: pairs, rest)
  | lines => ([], lines)

/-- Add the sections that lines make up. -/
def addSections (fuel : Nat) (root : Entries) : List Line → Option Entries
  | .header header :: lines =>
    match fuel with
    | 0 => none
    | fuel + 1 => do
      let (pairs, rest) := pairsOf lines
      addSections fuel (← addSection root header pairs) rest
  | _ => some root

/-- A document without the byte-order mark that it may begin with. -/
def withoutMark : Text → Text
  | '\uFEFF' :: t => t
  | t => t

/-- **A document**, as the entries of its root table; none if the text is no TOML document. -/
def parse (t : Text) : Option Entries := do
  let t := withoutMark t
  let lines ← lines (t.length + 1) t
  let (pairs, rest) := pairsOf lines
  addSections lines.length (← fill pairs []) rest

end XmlGraft.Toml
