/-
  References — character data in its escaped form.

  Markup cannot hold `<` or `&` as characters; they are written as references.  Five names are
  known (`lt gt amp apos quot`), and any character can be written by its number, decimal (`&#60;`)
  or hexadecimal (`&#x3c;`).

  * `escapeText`   writes `<`, `>` and `&` as references
  * `escapeValue`  also writes both quotes so, for use between them
  * `resolve`      replaces every reference by its character, or says which one is at fault

  The last section proves that resolving undoes both ways of escaping.
-/
import XmlGraft.Text.Basic

namespace XmlGraft.Markup

/-- **Why a reference cannot be resolved.** Offsets are bytes into the text being resolved. -/
inductive ReferenceFault
  /-- No `;` follows the `&` before the next `&` or the end. -/
  | unterminated (start stop : Nat)
  /-- The name between `&` and `;` is not one of the five. -/
  | unknownName (start stop : Nat) (name : Text)
  | signedNumber
  | emptyNumber
  | badDigit
  | numberTooLarge
  | nullCharacter
  /-- The number is that of no character. -/
  | notACharacter (code : Nat)
  deriving DecidableEq, Repr

namespace ReferenceFault

/-- What is wrong with the reference, in words. -/
def message : ReferenceFault → String
  | unterminated start stop =>
    s!"Error while escaping character at range {start}..{stop}: Cannot find ';' after '&'"
  | unknownName start stop name =>
    s!"at {start}..{stop}: unrecognized entity `{String.ofList name}`"
  | signedNumber => "invalid character reference: unexpected number sign"
  | emptyNumber => "invalid character reference: cannot parse integer from empty string"
  | badDigit => "invalid character reference: invalid digit found in string"
  | numberTooLarge =>
    "invalid character reference: number too large to fit in target type"
  | nullCharacter => "invalid character reference: 0x0 character is not permitted in XML"
  | notACharacter code => s!"invalid character reference: `{code}` is not a valid codepoint"

end ReferenceFault

/-! ## Escaping -/

/-- The written form of a character in text. -/
def escapeTextChar (c : Char) : Text :=
  match c with
  | '<' => "&lt;".toList
  | '>' => "&gt;".toList
  | '&' => "&amp;".toList
  | c => [c]

/-- The written form of a character in an attribute value. -/
def escapeValueChar (c : Char) : Text :=
  match c with
  | '\'' => "&apos;".toList
  | '"' => "&quot;".toList
  | c => escapeTextChar c

/-- **Text in escaped form**: `<`, `>` and `&` become references. -/
def escapeText (t : Text) : Text := t.flatMap escapeTextChar

/-- **An attribute value in escaped form**: the quotes become references too. -/
def escapeValue (t : Text) : Text := t.flatMap escapeValueChar

/-! ## Resolving -/

/-- The character that a name stands for. -/
def namedChar? (name : Text) : Option Char :=
  if name = "lt".toList then some '<'
  else if name = "gt".toList then some '>'
  else if name = "amp".toList then some '&'
  else if name = "apos".toList then some '\''
  else if name = "quot".toList then some '"'
  else none

/-- The value of a digit below `radix`. -/
def digit? (radix : Nat) (c : Char) : Option Nat :=
  let n := c.toNat
  let value :=
    if '0'.toNat ≤ n ∧ n ≤ '9'.toNat then some (n - '0'.toNat)
    else if 'a'.toNat ≤ n ∧ n ≤ 'z'.toNat then some (n - 'a'.toNat + 10)
    else if 'A'.toNat ≤ n ∧ n ≤ 'Z'.toNat then some (n - 'A'.toNat + 10)
    else none
  value.filter (· < radix)

/-- The largest number a reference can hold: 32 bits. -/
def maxReference : Nat := 0xFFFFFFFF

/-- Read on from the number `n`: the digits are taken from the left, and the first one that is
    none, or that makes the number too large, decides the fault. -/
def number (radix : Nat) : Nat → Text → Except ReferenceFault Nat
  | n, [] => .ok n
  | n, c :: t =>
    match digit? radix c with
    | none => .error .badDigit
    | some d =>
      if n * radix + d > maxReference then .error .numberTooLarge
      else number radix (n * radix + d) t

/-- A number with at least one digit and no sign. -/
def unsigned (radix : Nat) (digits : Text) : Except ReferenceFault Nat :=
  match digits with
  | [] => .error .emptyNumber
  | c :: _ => if c = '+' ∨ c = '-' then .error .signedNumber else number radix 0 digits

/-- The character with a number. -/
def charOfCode (code : Nat) : Except ReferenceFault Char :=
  if code = 0 then .error .nullCharacter
  else if code.isValidChar then .ok (Char.ofNat code)
  else .error (.notACharacter code)

/-- **The character a reference stands for**; `name` is what is written between `&` and `;`, and
    `start` its offset. -/
def referent (start : Nat) (name : Text) : Except ReferenceFault Char :=
  match name with
  | '#' :: 'x' :: digits => unsigned 16 digits >>= charOfCode
  | '#' :: digits => unsigned 10 digits >>= charOfCode
  | name =>
    match namedChar? name with
    | some c => .ok c
    | none => .error (.unknownName start (start + name.size) name)

/-- What stands between an `&` and the `;` or `&` that comes next. -/
def referenceName (t : Text) : Text := t.takeWhile fun c => c != '&' && c != ';'

/-- Resolve from byte `o` on, in a text of `total` bytes. -/
def resolveFrom (total o : Nat) (t : Text) : Except ReferenceFault Text :=
  match t with
  | [] => .ok []
  | c :: t =>
    if c = '&' then
      match h : t.drop (referenceName t).length with
      | ';' :: rest => do
        let ch ← referent (o + 1) (referenceName t)
        let resolved ← resolveFrom total (o + 2 + (referenceName t).size) rest
        return ch :: resolved
      | _ => .error (.unterminated o total)
    else do
      let resolved ← resolveFrom total (o + c.utf8Size) t
      return c :: resolved
termination_by t.length
decreasing_by
  · have := congrArg List.length h
    simp only [List.length_drop, List.length_cons] at this ⊢
    omega
  · simp

/-- **The text with every reference replaced by its character.** -/
def resolve (t : Text) : Except ReferenceFault Text := resolveFrom t.size 0 t

/-- The text with its references replaced, or as it stands when one of them is at fault. -/
def resolveOrSame (t : Text) : Text :=
  match resolve t with
  | .ok value => value
  | .error _ => t

/-! ## Resolving undoes escaping -/

/-- A reference by one of the five names is read whole. -/
theorem resolveFrom_named {name : Text} {c : Char} (known : namedChar? name = some c)
    (total o : Nat) (rest : Text) :
    resolveFrom total o ('&' :: name ++ ';' :: rest)
      = (resolveFrom total (o + 2 + name.size) rest).map (c :: ·) := by
  have cases : (name = "lt".toList ∧ c = '<') ∨ (name = "gt".toList ∧ c = '>')
      ∨ (name = "amp".toList ∧ c = '&') ∨ (name = "apos".toList ∧ c = '\'')
      ∨ (name = "quot".toList ∧ c = '"') := by
    unfold namedChar? at known
    repeat' split at known
    all_goals simp_all
    all_goals exact known.symm
  rcases cases with ⟨rfl, rfl⟩ | ⟨rfl, rfl⟩ | ⟨rfl, rfl⟩ | ⟨rfl, rfl⟩ | ⟨rfl, rfl⟩ <;>
    · simp [resolveFrom, referenceName, referent, namedChar?]
      rfl

/-- A character that is not `&` stands for itself. -/
theorem resolveFrom_cons {c : Char} (plain : c ≠ '&') (total o : Nat) (rest : Text) :
    resolveFrom total o (c :: rest)
      = (resolveFrom total (o + c.utf8Size) rest).map (c :: ·) := by
  simp [resolveFrom, plain]
  rfl

theorem resolveFrom_escapeTextChar (c : Char) (total o : Nat) (rest : Text) :
    ∃ o', resolveFrom total o (escapeTextChar c ++ rest)
      = (resolveFrom total o' rest).map (c :: ·) := by
  unfold escapeTextChar
  split
  · exact ⟨_, resolveFrom_named (show namedChar? "lt".toList = _ from rfl) total o rest⟩
  · exact ⟨_, resolveFrom_named (show namedChar? "gt".toList = _ from rfl) total o rest⟩
  · exact ⟨_, resolveFrom_named (show namedChar? "amp".toList = _ from rfl) total o rest⟩
  · next plain => exact ⟨_, resolveFrom_cons plain total o rest⟩

theorem resolveFrom_escapeValueChar (c : Char) (total o : Nat) (rest : Text) :
    ∃ o', resolveFrom total o (escapeValueChar c ++ rest)
      = (resolveFrom total o' rest).map (c :: ·) := by
  unfold escapeValueChar
  split
  · exact ⟨_, resolveFrom_named (show namedChar? "apos".toList = _ from rfl) total o rest⟩
  · exact ⟨_, resolveFrom_named (show namedChar? "quot".toList = _ from rfl) total o rest⟩
  · exact resolveFrom_escapeTextChar c total o rest

theorem resolveFrom_flatMap {write : Char → Text}
    (reads : ∀ c total o rest, ∃ o', resolveFrom total o (write c ++ rest)
      = (resolveFrom total o' rest).map (c :: ·)) (t : Text) :
    ∀ total o, resolveFrom total o (t.flatMap write) = .ok t := by
  induction t with
  | nil => intro total o; simp [resolveFrom]
  | cons c t ih =>
    intro total o
    obtain ⟨o', step⟩ := reads c total o (t.flatMap write)
    rw [List.flatMap_cons, step, ih total o']
    rfl

/-- Escaped text stands for the text it was made from. -/
theorem resolve_escapeText (t : Text) : resolve (escapeText t) = .ok t :=
  resolveFrom_flatMap resolveFrom_escapeTextChar t _ _

/-- An escaped attribute value stands for the value it was made from. -/
theorem resolve_escapeValue (t : Text) : resolve (escapeValue t) = .ok t :=
  resolveFrom_flatMap resolveFrom_escapeValueChar t _ _

end XmlGraft.Markup
