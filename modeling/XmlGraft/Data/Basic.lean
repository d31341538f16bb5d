/-
  Data — values of a data format, as records are read from them.

  Records such as settings come as data: from a settings file, or from a program that hands them
  over in a data format.  Reading one either succeeds or tells the first thing that is wrong.

  * `Data`          a value
  * `Data.kind`     what a value is, in words
  * `DataFault`     why a record cannot be read
  * `Whereabouts`   where in data a fault is
-/
import XmlGraft.Text.Quoted

namespace XmlGraft

/-- **Data**: a value of a data format. -/
inductive Data
  | null
  | truth (value : Bool)
  | integer (value : Int)
  /-- A number that is no integer, as it is shown. -/
  | number (shown : Text)
  | text (value : Text)
  | date
  | list (items : List Data)
  | table (entries : List (Text × Data))
  deriving Repr, Inhabited

/-- **Why a record cannot be read.** -/
inductive DataFault
  /-- A value of another kind. -/
  | wrongType (found expected : String)
  /-- A value of the right kind that cannot be. -/
  | wrongValue (found expected : String)
  /-- Too few or too many items. -/
  | wrongLength (found : Nat) (expected : String)
  | missingField (name : Text)
  | unknownField (name : Text) (known : List Text)
  | unknownVariant (name : Text) (known : List Text)
  /-- None of the forms that a type of values has. -/
  | noVariant (type : String)
  /-- Neither the name of a variant nor a table. -/
  | notAVariant
  /-- A table in the place of a variant, which does not have one entry. -/
  | notOneEntry (found : Nat)
  /-- A variant without content has some; what would have to be empty. -/
  | hasContent (container : String)
  /-- A variant without content has a value beside it. -/
  | hasValue (type : String)
  deriving DecidableEq, Repr

/-- **Where in data a fault is**: in a name or in a value, by the names that lead there. -/
inductive Whereabouts
  | name (path : List Text)
  | value (path : List Text)
  deriving DecidableEq, Repr

namespace DataFault

/-- A name between backquotes. -/
def marked (name : Text) : String := "`" ++ String.ofList name ++ "`"

/-- The fault in words. -/
def message : DataFault → String
  | wrongType found expected => "invalid type: " ++ found ++ ", expected " ++ expected
  | wrongValue found expected => "invalid value: " ++ found ++ ", expected " ++ expected
  | wrongLength found expected => s!"invalid length {found}, expected " ++ expected
  | missingField name => "missing field " ++ marked name
  | unknownField name known =>
    "unknown field " ++ marked name ++ ", expected one of " ++ ", ".intercalate (known.map marked)
  | unknownVariant name known =>
    "unknown variant " ++ marked name ++ ", expected one of "
      ++ ", ".intercalate (known.map marked)
  | noVariant type => "data did not match any variant of untagged enum " ++ type
  | notAVariant => "wanted string or table"
  | notOneEntry found =>
    "wanted exactly 1 element, "
      ++ if found = 0 then "found 0 elements" else "more than 1 element"
  | hasContent container => "expected empty " ++ container
  | hasValue type => "expected table, found " ++ type

end DataFault

namespace Data

/-- What the value is, in words. -/
def kind : Data → String
  | null => "null"
  | truth value => s!"boolean `{value}`"
  | integer value => s!"integer `{value}`"
  | number shown => "floating point `" ++ String.ofList shown ++ "`"
  | text value => "string " ++ String.ofList (Text.quoted value)
  | date => "map"
  | list _ => "sequence"
  | table _ => "map"

/-- The name of the type of the value. -/
def typeName : Data → String
  | null => "null"
  | truth _ => "boolean"
  | integer _ => "integer"
  | number _ => "float"
  | text _ => "string"
  | date => "datetime"
  | list _ => "array"
  | table _ => "table"

/-- Another kind of value was expected. -/
def refuse {α : Type} (d : Data) (expected : String) : Except DataFault α :=
  .error (.wrongType d.kind expected)

/-- The text that the value is. -/
def asText : Data → Except DataFault Text
  | text value => .ok value
  | d => d.refuse "a string"

/-- The truth value that the value is. -/
def asTruth : Data → Except DataFault Bool
  | truth value => .ok value
  | d => d.refuse "a boolean"

/-- The items of a list; `read` says how far they go, and no item may be left. -/
def exactly {α : Type} (items : List Data) (read : List Data → Except DataFault (α × List Data)) :
    Except DataFault α := do
  let (value, rest) ← read items
  if rest.isEmpty then return value
  else throw (.wrongLength items.length "fewer elements in array")

/-- The entry of a name that must be there. -/
def require {α : Type} (name : Text) (entries : List (Text × α)) : Except DataFault α :=
  match entries.lookup name with
  | some value => .ok value
  | none => .error (.missingField name)

end Data

end XmlGraft
