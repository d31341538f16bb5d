/-
  Settings from data and from a settings file.

  Settings are a record whose entries may all be left out.  Data that a program hands over may
  also be the list of the values in their order.  In a settings file the indent unit is checked
  at once.

  * `Settings.ofData`   settings from data
  * `Settings.ofToml`   settings from the text of a settings file
  * `SettingsFault`     what is wrong with settings
-/
import XmlGraft.Settings.Basic
import XmlGraft.Toml.Callout

namespace XmlGraft

/-- **What is wrong with settings.** -/
inductive SettingsFault
  /-- The indent unit is no run of spaces or tabs. -/
  | badUnit (given : Text)
  /-- The text is no TOML document. -/
  | notToml
  /-- An entry cannot be read; a settings file shows where it stands. -/
  | unreadable (fault : DataFault) (callout : Option Toml.Callout)
  /-- The fault of a settings file. -/
  | inFile (file : Text) (fault : SettingsFault)
  deriving DecidableEq, Repr

/-- The fault in words. -/
def SettingsFault.message : SettingsFault → String
  | badUnit given =>
    "indent_unit must be a non-empty run of spaces or tabs, got "
      ++ String.ofList (Text.quoted given)
  | notToml => "not a TOML document"
  | unreadable fault callout => callout.elim fault.message (·.under fault.message)
  | inFile file fault => String.ofList file ++ ": " ++ fault.message

namespace LineEnding

/-- The line ending with a name. -/
def ofName (name : Text) : Except DataFault LineEnding :=
  match ofName? name with
  | some e => .ok e
  | none => .error (.unknownVariant name (all.map LineEnding.name))

/-- Data beside the name of a variant that has no content. -/
def noContent : Data → Except DataFault Unit
  | .null => .ok ()
  | d => d.refuse "unit"

/-- **A line ending from data**: its name, or a table with the name as the only entry. -/
def ofData : Data → Except DataFault LineEnding
  | .text name => ofName name
  | .table [(name, content)] => do
    let e ← ofName name
    noContent content
    return e
  | .table _ => .error (.wrongValue "map" "map with a single key")
  | d => d.refuse "string or map"

/-- An item of a settings file beside the name of a variant that has no content: a list or a table,
    and it has to be empty. -/
def noContentItem : Toml.Item → Except DataFault Unit
  | .list [] _ | .table _ _ [] => .ok ()
  | .list .. | .table .. => .error (.hasContent "table")
  | .tables _ => .error (.hasContent "array")
  | .scalar d _ => .error (.hasValue d.typeName)

/-- **A line ending from a settings file**: its name, or a table with the name as the only
    entry. -/
def ofItem : Toml.Item → Except DataFault LineEnding
  | .scalar (.text name) _ => ofName name
  | .table _ _ [(name, content)] => do
    let e ← ofName name.text
    noContentItem content
    return e
  | .table _ _ entries => .error (.notOneEntry entries.length)
  | _ => .error .notAVariant

end LineEnding

namespace Settings

/-- The names of the entries. -/
def entryNames : List Text :=
  ["indent_unit", "infer_indent_unit", "line_ending"].map String.toList

/-- Take one entry over, whose value is `ending` if it is read as a line ending. -/
def setEntry (s : Settings) (name : Text) (value : Data) (ending : Except DataFault LineEnding) :
    Except DataFault Settings :=
  match entryNames.idxOf? name with
  | some 0 => do return { s with indentUnit := ← value.asText }
  | some 1 => do return { s with inferUnit := ← value.asTruth }
  | some 2 => do return { s with lineEnding := ← ending }
  | _ => .error (.unknownField name entryNames)

/-- Take entries over, one after the other. -/
def setEntries (s : Settings) (entries : List (Text × Data)) : Except DataFault Settings :=
  entries.foldlM (fun s (name, value) => s.setEntry name value (LineEnding.ofData value)) s

/-- **Settings from data.** -/
def ofData (d : Data) : Except DataFault Settings :=
  match d with
  | .table entries => standard.setEntries entries
  | .list values =>
    Data.exactly values fun values => do
      let s ← standard.setEntries (entryNames.zip values)
      return (s, values.drop entryNames.length)
  | d => d.refuse "struct SpliceConfig"

/-- The indent unit, or the fault. -/
def unit (s : Settings) : Except SettingsFault IndentUnit :=
  match s.unit? with
  | some unit => .ok unit
  | none => .error (.badUnit s.indentUnit)

/-- Where the fault of an entry is: a name that is not known is at fault itself, and where a table
    stands for a line ending, its only entry. -/
def whereabouts (name : Text) (item : Toml.Item) (fault : DataFault) : Whereabouts :=
  match fault, item with
  | .unknownField .., _ => .name [name]
  | .unknownVariant .., .table _ _ [(variant, _)] => .name [name, variant.text]
  | .hasContent _, .table _ _ [(variant, _)] | .hasValue _, .table _ _ [(variant, _)] =>
    .value [name, variant.text]
  | _, _ => .value [name]

/-- **Settings from the text of a settings file.** -/
def ofToml (doc : Text) : Except SettingsFault Settings := do
  let some entries := Toml.parse doc | throw .notToml
  let s ← entries.foldlM
    (fun s (name, item) =>
      (s.setEntry name.text item.data (LineEnding.ofItem item)).mapError fun fault =>
        .unreadable fault
          ((entries.extentAt? (whereabouts name.text item fault)).map (Toml.Callout.ofExtent doc)))
    standard
  let _ ← s.unit
  return s

end Settings

end XmlGraft
