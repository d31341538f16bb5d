/-
  Fields — named values, in the order in which the names were first set.

  Written into an element, every field that has a value takes the first child element of its name,
  or a new last child; absent fields leave the element alone.

  * `Fields.set`      a field keeps its place when it is set again
  * `Fields.written`  the fields that have a text
  * `Fields.applyTo`  the fields written into an element, and how many children that changed

  A child that holds its value is left as it is.  One with a comment beside the text holds no value;
  it is set, which drops the comment.  New children come in the order of the fields.  The names are
  not checked here; a field with a name that is none is written into a tag like any other.
-/
import XmlGraft.Edit.Scalar
import XmlGraft.Markup.Tree

namespace XmlGraft

open Markup

/-- **Fields**: names with their values. -/
structure Fields where
  entries : List (Text × Scalar)
  deriving DecidableEq, Repr

namespace Fields

/-- No fields. -/
def empty : Fields := ⟨[]⟩

/-- Set the first entry of a name, or add one behind the others. -/
def setIn (name : Text) (value : Scalar) : List (Text × Scalar) → List (Text × Scalar)
  | [] => [(name, value)]
  | (n, v) :: entries =>
    if n = name then (n, value) :: entries else (n, v) :: setIn name value entries

/-- **Set a field**: in its place if there is one of the name, behind the others if not. -/
def set (fields : Fields) (name : Text) (value : Scalar) : Fields :=
  ⟨setIn name value fields.entries⟩

/-- The fields that pairs make up when they are set one after the other. -/
def ofPairs (pairs : List (Text × Scalar)) : Fields :=
  pairs.foldl (fun fields (name, value) => fields.set name value) empty

/-- The value of a field. -/
def get? (fields : Fields) (name : Text) : Option Scalar := fields.entries.lookup name

/-- How many fields there are. -/
def size (fields : Fields) : Nat := fields.entries.length

/-- **The fields that have a text**, in order. -/
def written (fields : Fields) : List (Text × Text) :=
  fields.entries.filterMap fun (name, value) => value.written?.map (name, ·)

/-- Write one value into an element; was there anything to change? -/
def writeOne (e : Element) (name value : Text) : Element × Bool :=
  match e.findChild? (·.name == name) with
  | some (i, child) =>
    -- a held value raises no flag, so an element with all its values is not laid out anew
    if child.holds value then (e, false) else (e.putChild i (child.setText value), true)
  | none => (e.append (Element.ofValue name value).toNode, true)

/-- Write values into an element, one after the other, and count the changes. -/
def writeAll (e : Element) : List (Text × Text) → Element × Nat
  | [] => (e, 0)
  | (name, value) :: more =>
    let (e, changed) := writeOne e name value
    let (e, count) := writeAll e more
    (e, count + changed.toNat)

/-- **The fields written into an element**, with the number of children changed or added. -/
def applyTo (fields : Fields) (e : Element) : Element × Nat := writeAll e fields.written

/-- The fields with the types of their values, for diagnostics. -/
def described (fields : Fields) : String :=
  let entries := fields.entries.map fun (name, value) =>
    "(" ++ String.ofList (Text.quoted name) ++ ", " ++ value.described ++ ")"
  "FieldSet \x7b fields: [" ++ ", ".intercalate entries ++ "] \x7d"

end Fields

end XmlGraft
