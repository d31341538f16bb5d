/-
  Numbers, truth values and dates of a TOML document.

  Where a value begins with a sign or a digit, a date is tried first, then a fraction, then an
  integer.
-/
import XmlGraft.Data.Basic
import XmlGraft.Data.Number
import XmlGraft.Toml.Lexeme

namespace XmlGraft.Toml

/-! ## Digits -/

/-- Digits that may have single underscores between them, behind a first digit. -/
def moreDigits? (isDigit : Char → Bool) : Reader Text
  | '_' :: c :: t => if isDigit c then cons c (moreDigits? isDigit t) else none
  | '_' :: [] => none
  | c :: t => if isDigit c then cons c (moreDigits? isDigit t) else some ([], c :: t)
  | [] => some ([], [])

/-- At least one digit; single underscores may stand between digits. -/
def digits? (isDigit : Char → Bool) : Reader Text
  | c :: t => if isDigit c then cons c (moreDigits? isDigit t) else none
  | [] => none

/-- A sign, if one comes next: is it a minus? -/
def sign (t : Text) : Bool × Text :=
  match t with
  | '-' :: t => (true, t)
  | '+' :: t => (false, t)
  | t => (false, t)

/-- A whole number without a zero before other digits. -/
def whole? : Reader Text
  | '0' :: t => some (['0'], t)
  | t => digits? Char.isDigit t

/-- A number of hexadecimal, octal or binary digits. -/
def inRadix? (radix : Nat) (t : Text) : Option (Data × Text) := do
  let (digits, t) ← digits? (fun c => (Markup.digit? radix c).isSome) t
  let n ← digits.foldlM (fun n c => (Markup.digit? radix c).map (n * radix + ·)) 0
  if Scalar.fits n then some (.integer n, t) else none

/-- **An integer** of 64 bits. -/
def integer? : Reader Data
  | '0' :: 'x' :: t => inRadix? 16 t
  | '0' :: 'o' :: t => inRadix? 8 t
  | '0' :: 'b' :: t => inRadix? 2 t
  | t => do
    let (negative, t) := sign t
    let (digits, t) ← whole? t
    let n ← Scalar.natural? digits
    let value : Int := if negative then -(n : Int) else n
    if Scalar.fits value then some (.integer value, t) else none

/-- The exponent of a fraction. -/
def exponent? (t : Text) : Option (Int × Text) := do
  let (negative, t) := sign t
  let (digits, t) ← digits? Char.isDigit t
  let n ← Scalar.natural? digits
  return (if negative then -(n : Int) else n, t)

/-- The part of a fraction behind the point and the exponent; one of them must be there. -/
def fraction? (t : Text) : Option (Text × Int × Text) :=
  match t with
  | '.' :: t => do
    let (digits, t) ← digits? Char.isDigit t
    match t with
    | 'e' :: t | 'E' :: t => do
      let (exponent, t) ← exponent? t
      return (digits, exponent, t)
    | t => return (digits, 0, t)
  | 'e' :: t | 'E' :: t => do
    let (exponent, t) ← exponent? t
    return ([], exponent, t)
  | _ => none

/-- A number of 64 bits that is written with a fraction or an exponent. -/
def decimal? (t : Text) : Option (Data × Text) := do
  let (negative, t) := sign t
  let (before, t) ← whole? t
  let (behind, exponent, t) ← fraction? t
  let digits ← Scalar.natural? (before ++ behind)
  let exponent := exponent - behind.length
  if Data.nearest digits exponent = .infinite ∧ ¬ negative then none
  else return (.number (Data.numberText .positional negative digits exponent), t)

/-- Infinity and the value that is no number. -/
def special? (t : Text) : Option (Data × Text) :=
  match sign t with
  | (true, 'i' :: 'n' :: 'f' :: t) => some (.number ['-', 'i', 'n', 'f'], t)
  | (false, 'i' :: 'n' :: 'f' :: t) => some (.number ['i', 'n', 'f'], t)
  | (_, 'n' :: 'a' :: 'n' :: t) => some (.number ['N', 'a', 'N'], t)
  | _ => none

/-! ## Dates -/

/-- A number of exactly `count` digits. -/
def fixed? (count : Nat) : Reader Nat := fun t => do
  let digits := t.take count
  if digits.length = count ∧ digits.all Char.isDigit then
    return (← Scalar.natural? digits, t.drop count)
  else none

/-- A number of two digits between two bounds. -/
def pair? (low high : Nat) : Reader Nat := fun t => do
  let (n, t) ← fixed? 2 t
  if low ≤ n ∧ n ≤ high then return (n, t) else none

/-- How many days a month has. -/
def daysIn (year month : Nat) : Nat :=
  if month = 2 then
    if year % 4 = 0 ∧ (year % 100 ≠ 0 ∨ year % 400 = 0) then 29 else 28
  else if month = 4 ∨ month = 6 ∨ month = 9 ∨ month = 11 then 30
  else 31

/-- The rest behind a day of the calendar. -/
def afterDay? (t : Text) : Option Text := do
  let (year, t) ← fixed? 4 t
  let (month, t) ← pair? 1 12 (← after? '-' t)
  let (_, t) ← pair? 1 (daysIn year month) (← after? '-' t)
  return t

/-- The rest behind the fraction of a second, if there is one. -/
def afterSecondFraction? (t : Text) : Option Text :=
  match t with
  | '.' :: c :: t => if c.isDigit then some (t.dropWhile Char.isDigit) else none
  | t => some t

/-- The rest behind a time of day. -/
def afterTime? (t : Text) : Option Text := do
  let (_, t) ← pair? 0 23 t
  let (_, t) ← pair? 0 59 (← after? ':' t)
  let (_, t) ← pair? 0 60 (← after? ':' t)
  afterSecondFraction? t

/-- The rest behind the distance from universal time, if there is one. -/
def afterOffset (t : Text) : Text :=
  match t with
  | 'Z' :: t | 'z' :: t => t
  | '+' :: rest | '-' :: rest =>
    let read := do
      let (_, rest) ← pair? 0 23 rest
      let (_, rest) ← pair? 0 59 (← after? ':' rest)
      return rest
    read.getD t
  | t => t

/-- **A date**: a day, a time, or both. -/
def date? (t : Text) : Option (Data × Text) :=
  match afterDay? t with
  | some t =>
    let withTime :=
      match t with
      | 'T' :: rest | 't' :: rest | ' ' :: rest => (afterTime? rest).map afterOffset
      | _ => none
    some (.date, withTime.getD t)
  | none => (afterTime? t).map (.date, ·)

/-! ## Plain values -/

/-- **A number, a truth value or a date.** -/
def plain? (t : Text) : Option (Data × Text) :=
  match t with
  | 't' :: 'r' :: 'u' :: 'e' :: t => some (.truth true, t)
  | 'f' :: 'a' :: 'l' :: 's' :: 'e' :: t => some (.truth false, t)
  | t => date? t <|> decimal? t <|> special? t <|> integer? t

end XmlGraft.Toml
