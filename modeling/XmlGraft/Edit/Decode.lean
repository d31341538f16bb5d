/-
  Fields from data.

  A scalar is any of the plain values of a data format.  Fields are a record with one entry, the
  list of their pairs, which is taken as it is.
-/
import XmlGraft.Data.Basic
import XmlGraft.Edit.Fields

namespace XmlGraft

/-- **A scalar from data.** -/
def Scalar.ofData : Data → Except DataFault Scalar
  | .null => .ok .absent
  | .truth value => .ok (.truth value)
  | .text value => .ok (.text value)
  | .integer value =>
    if Scalar.fits value then .ok (.integer (Int64.ofInt value))
    else .error (.noVariant "FieldValue")
  | _ => .error (.noVariant "FieldValue")

namespace Fields

/-- A name with its value from data. -/
def pairOfData (d : Data) : Except DataFault (Text × Scalar) :=
  match d with
  | .list items =>
    Data.exactly items fun
      | [] => .error (.wrongLength 0 "a tuple of size 2")
      | name :: rest => do
        let name ← name.asText
        match rest with
        | [] => throw (.wrongLength 1 "a tuple of size 2")
        | value :: rest => return ((name, ← Scalar.ofData value), rest)
  | d => d.refuse "a tuple of size 2"

/-- The pairs of fields from data. -/
def pairsOfData (d : Data) : Except DataFault (List (Text × Scalar)) :=
  match d with
  | .list items => items.mapM pairOfData
  | d => d.refuse "a sequence"

/-- The entry that holds the pairs. -/
def entryName : Text := ['f', 'i', 'e', 'l', 'd', 's']

/-- **Fields from data**: a record with the pairs, or a list that holds them. -/
def ofData (d : Data) : Except DataFault Fields :=
  match d with
  | .table entries => do
    let known ← (entries.filter (·.1 == entryName)).mapM fun (name, value) => do
      return (name, ← pairsOfData value)
    return ⟨← Data.require entryName known⟩
  | .list items =>
    Data.exactly items fun
      | [] => .error (.wrongLength 0 "struct FieldSet with 1 element")
      | pairs :: rest => do return (⟨← pairsOfData pairs⟩, rest)
  | d => d.refuse "struct FieldSet"

end Fields

end XmlGraft
