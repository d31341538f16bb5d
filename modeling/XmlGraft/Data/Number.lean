/-
  Number — decimal fractions as binary fractions of 53 digits, and their shortest decimal text.

  A decimal is read to the nearest number that a 64-bit word can hold, and written with the fewest
  digits that read back to it; of two such texts the nearer one, and of two that are as near the
  one that the style prefers.

  * `Binary`        a number that is a whole multiple of a power of two
  * `Tie`           which of two decimals that are as near is taken
  * `shortest`      the fewest digits that stand for it
  * `NumberStyle`   how the digits are laid out
-/
import XmlGraft.Edit.Scalar

namespace XmlGraft.Data

/-! ## Reading -/

/-- **Binary**: the number `significand * 2 ^ exponent`, as a 64-bit word holds it. -/
structure Binary where
  significand : Nat
  exponent : Int
  /-- The gap to the number below is half the gap to the number above. -/
  narrowBelow : Bool
  deriving DecidableEq, Repr

/-- What a word holds: a number, or that it is too large. -/
inductive Word
  | finite (value : Binary)
  | infinite
  deriving DecidableEq, Repr

/-- The magnitude in the bits of a word. -/
def Word.ofBits (bits : Nat) : Word :=
  let fraction : Nat := bits % Nat.pow 2 52
  let field : Nat := bits / Nat.pow 2 52 % 2048
  if field = 2047 then .infinite
  else if field = 0 then .finite ⟨fraction, -1074, false⟩
  else .finite ⟨fraction + Nat.pow 2 52, Int.ofNat field - 1075, fraction == 0 && 1 < field⟩

/-- **The word nearest to `digits * 10 ^ exponent`.**  Powers beyond all words are not computed. -/
def nearest (digits : Nat) (exponent : Int) : Word :=
  let magnitude := (Scalar.decimalDigits digits).length + exponent
  if digits = 0 ∨ magnitude < -400 then .finite ⟨0, -1074, false⟩
  else if 400 < magnitude then .infinite
  else .ofBits (Float.ofScientific digits (exponent < 0) exponent.natAbs).toBits.toNat

/-! ## The fewest digits -/

/-- A number as digits: `digits * 10 ^ exponent`. -/
structure Decimal where
  digits : Nat
  exponent : Int
  deriving DecidableEq, Repr

/-- **Which of two decimals is taken** when a binary lies halfway between them. -/
inductive Tie
  /-- The one with the greater magnitude. -/
  | greater
  /-- The one whose last digit is even. -/
  | even
  deriving DecidableEq, Repr

/-- Is the lower one of `below` and `below + 1` taken? -/
def Tie.takesLower (below : Nat) : Tie → Bool
  | greater => false
  | even => below % 2 == 0

/-- The powers that bring quarters of the binary's unit and `10 ^ place` to whole numbers. -/
def scales (b : Binary) (place : Int) : Nat × Nat :=
  (Nat.pow 2 (b.exponent - 2).toNat * Nat.pow 10 (-place).toNat,
    Nat.pow 2 (2 - b.exponent).toNat * Nat.pow 10 place.toNat)

/-- The multiples of `10 ^ place` next to a binary, those that read back to it; the nearer one
    first. -/
def neighbours (tie : Tie) (b : Binary) (place : Int) : List Nat :=
  let (quarter, step) := scales b place
  let value := 4 * b.significand * quarter
  let low := (4 * b.significand - if b.narrowBelow then 1 else 2) * quarter
  let high := (4 * b.significand + 2) * quarter
  let readsBack (n : Nat) : Bool :=
    if b.significand % 2 = 0 then low ≤ n * step && n * step ≤ high
    else low < n * step && n * step < high
  let below := value / step
  let toBelow := value - below * step
  let toAbove := (below + 1) * step - value
  let candidates :=
    if toBelow < toAbove || toBelow == toAbove && tie.takesLower below then [below, below + 1]
    else [below + 1, below]
  candidates.filter readsBack

/-- The least power of ten above a binary, as its exponent. -/
def magnitude (b : Binary) : Int :=
  let above (place : Int) : Bool :=
    let (quarter, step) := scales b place
    4 * b.significand * quarter < step
  (((List.range 660).map fun (n : Nat) => (n : Int) - 330).find? above).getD 330

/-- Digits without the zeros at their end. -/
def Decimal.trimmed (fuel : Nat) (d : Decimal) : Decimal :=
  match fuel with
  | 0 => d
  | fuel + 1 =>
    if d.digits ≠ 0 ∧ d.digits % 10 = 0 then trimmed fuel ⟨d.digits / 10, d.exponent + 1⟩ else d

/-- **The fewest digits that stand for a binary.** -/
def shortest (tie : Tie) (b : Binary) : Decimal :=
  if b.significand = 0 then ⟨0, 0⟩
  else
    let top := magnitude b
    let found := (List.range 17).findSome? fun (count : Nat) =>
      let place := top - ((count : Int) + 1)
      (neighbours tie b place).head?.map fun n => (⟨n, place⟩ : Decimal)
    (found.getD ⟨b.significand, b.exponent⟩).trimmed 17

/-! ## The layout -/

/-- **NumberStyle**: which digits are taken on a tie, and where they are written around the point
    and where with an exponent. -/
structure NumberStyle where
  tie : Tie
  /-- The point may stand this far before the digits. -/
  leastPoint : Int
  /-- The point may stand this far behind the first digit. -/
  greatestPoint : Int
  deriving DecidableEq, Repr

/-- Always around the point; a tie goes to the greater magnitude. -/
def NumberStyle.positional : NumberStyle := ⟨.greater, -400, 400⟩

/-- With an exponent when the number is very small or has more than 16 digits before the point; a
    tie goes to the even digit. -/
def NumberStyle.exponential : NumberStyle := ⟨.even, -4, 16⟩

/-- Digits with the point behind `point` of them. -/
def aroundPoint (digits : Text) (point : Int) : Text :=
  let zeros (n : Int) : Text := List.replicate n.toNat '0'
  if point ≤ 0 then ['0', '.'] ++ zeros (-point) ++ digits
  else if digits.length ≤ point then digits ++ zeros (point - digits.length) ++ ['.', '0']
  else digits.take point.toNat ++ '.' :: digits.drop point.toNat

/-- Digits with the point behind the first one, and an exponent. -/
def withExponent (digits : Text) (point : Int) : Text :=
  digits.take 1 ++ (if digits.length = 1 then [] else '.' :: digits.drop 1)
    ++ 'e' :: (if 0 < point then ['+'] else []) ++ Scalar.decimal (point - 1)

/-- **A decimal as text.** -/
def NumberStyle.written (layout : NumberStyle) (d : Decimal) : Text :=
  let digits := Scalar.decimalDigits d.digits
  let point := digits.length + d.exponent
  if layout.leastPoint ≤ point ∧ point ≤ layout.greatestPoint then aroundPoint digits point
  else withExponent digits point

/-- A word as text. -/
def Word.written (layout : NumberStyle) : Word → Text
  | finite value => layout.written (shortest layout.tie value)
  | infinite => ['i', 'n', 'f']

/-- **The text of `digits * 10 ^ exponent`** as a number of 64 bits. -/
def numberText (layout : NumberStyle) (negative : Bool) (digits : Nat) (exponent : Int) : Text :=
  (if negative then ['-'] else []) ++ (nearest digits exponent).written layout

end XmlGraft.Data
