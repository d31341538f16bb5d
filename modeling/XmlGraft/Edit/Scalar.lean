/-
  Scalar — the values that fields can have.

  A scalar is a text, an integer of 64 bits or a truth value, or it is absent.  A value given as
  plain text is typed by what it looks like; written into an element it is plain text again.

  * `Scalar.ofText`    the type that a plain text has
  * `Scalar.written?`  the text an element gets; none for an absent value

  Typing forgets how a number was spelled: `007`, `+7` and `7` are one integer, and are written with
  one digit.  A number beyond 64 bits is no integer here, so it stays a text and keeps its zeros.
  Truth values have one spelling each, in lower case, and come out as they went in.
-/
import XmlGraft.Text.Quoted

namespace XmlGraft

/-- **Scalar**: the value of a field. -/
inductive Scalar
  | text (value : Text)
  | integer (value : Int64)
  | truth (value : Bool)
  /-- Nothing is said about the field. -/
  | absent
  deriving DecidableEq, Repr

namespace Scalar

/-! ## Integers as text -/

/-- The digits of a number. -/
def decimalDigits (n : Nat) : Text := Nat.toDigits 10 n

/-- An integer in decimal digits, with a minus sign when it is negative. -/
def decimal (i : Int) : Text :=
  if i < 0 then '-' :: decimalDigits i.natAbs else decimalDigits i.natAbs

/-- The number that a run of decimal digits stands for, read on from `n`. -/
def readDigits (n : Nat) : Text → Option Nat
  | [] => some n
  | c :: t => if c.isDigit then readDigits (n * 10 + (c.toNat - '0'.toNat)) t else none

/-- The number that decimal digits stand for; there must be at least one. -/
def natural? (digits : Text) : Option Nat :=
  if digits.isEmpty then none else readDigits 0 digits

/-- The integer that an optional sign and decimal digits stand for. -/
def signed? (t : Text) : Option Int :=
  match t with
  | '-' :: digits => (natural? digits).map fun n => -(n : Int)
  | '+' :: digits => (natural? digits).map fun n => (n : Int)
  | digits => (natural? digits).map fun n => (n : Int)

/-- Does the integer fit in 64 bits? -/
def fits (i : Int) : Bool := Int64.minValue.toInt ≤ i && i ≤ Int64.maxValue.toInt

/-- The integer of 64 bits that a text stands for. -/
def integer? (t : Text) : Option Int64 := ((signed? t).filter fits).map Int64.ofInt

/-! ## Scalars as text -/

/-- A truth value in words. -/
def truthWord (b : Bool) : Text := if b then ['t', 'r', 'u', 'e'] else ['f', 'a', 'l', 's', 'e']

/-- **The type that a plain text has**: a truth value, else an integer, else just text. -/
def ofText (t : Text) : Scalar :=
  if t = truthWord true then .truth true
  else if t = truthWord false then .truth false
  else
    match integer? t with
    | some i => .integer i
    | none => .text t

/-- **The text an element gets**; none for an absent value. -/
def written? : Scalar → Option Text
  | text value => some value
  | integer value => some (decimal value.toInt)
  | truth value => some (truthWord value)
  | absent => none

/-- Is nothing said? -/
def isAbsent : Scalar → Bool
  | absent => true
  | _ => false

/-- The scalar with its type, for diagnostics. -/
def described : Scalar → String
  | text value => "String(" ++ String.ofList (Text.quoted value) ++ ")"
  | integer value => "Integer(" ++ String.ofList (decimal value.toInt) ++ ")"
  | truth value => "Boolean(" ++ String.ofList (truthWord value) ++ ")"
  | absent => "Absent"

/-- An absent value is the only one without a text. -/
theorem written?_eq_none_iff (s : Scalar) : s.written? = none ↔ s = absent := by
  cases s <;> simp [written?]

end Scalar

end XmlGraft
