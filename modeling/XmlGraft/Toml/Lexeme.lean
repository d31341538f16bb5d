/-
  Lexemes of a TOML document: blanks, comments, line ends, strings and keys.

  A reader takes a text and gives what it read together with the rest, or nothing.

  * `text?`  a string of any of the four kinds
  * `key?`   names with dots between them, each with its extent
-/
import XmlGraft.Text.Blank
import XmlGraft.Markup.Reference

namespace XmlGraft.Toml

/-- **Reader**: what was read, and the rest. -/
abbrev Reader (α : Type) := Text → Option (α × Text)

/-- Without the blanks at the front. -/
def skipBlanks (t : Text) : Text := t.dropWhile Text.isBlank

/-- The rest behind a character that must come next. -/
def after? (c : Char) : Text → Option Text
  | d :: t => if c = d then some t else none
  | [] => none

/-- The rest behind a line end: a line feed, or a carriage return and a line feed. -/
def afterLineEnd? : Text → Option Text
  | '\n' :: t => some t
  | '\r' :: '\n' :: t => some t
  | _ => none

/-- May the character stand in a comment, or in a literal string?  Controls other than the tab may
    not. -/
def isPlain (c : Char) : Bool :=
  c == '\t' || (0x20 ≤ c.toNat && c.toNat ≤ 0x7E) || 0x80 ≤ c.toNat

/-- The rest behind a comment, if one comes next. -/
def skipComment (t : Text) : Text :=
  match t with
  | '#' :: t => t.dropWhile isPlain
  | t => t

/-- The rest behind the blanks and the comment that may end a line, and behind its end. -/
def finishLine? (t : Text) : Option Text :=
  match skipComment (skipBlanks t) with
  | [] => some []
  | t => afterLineEnd? t

/-- The rest behind blanks, comments and line ends; every comment has a line end. -/
def skipLines (fuel : Nat) (t : Text) : Option Text :=
  match fuel with
  | 0 => some t
  | fuel + 1 =>
    match skipBlanks t with
    | '#' :: t => (afterLineEnd? (t.dropWhile isPlain)).bind (skipLines fuel)
    | '\n' :: t => skipLines fuel t
    | '\r' :: t => (afterLineEnd? ('\r' :: t)).bind (skipLines fuel)
    | t => some t

/-! ## Strings -/

/-- The character with a code that is written in `count` hexadecimal digits. -/
def codePoint? (count : Nat) : Reader Char := fun t => do
  let digits := t.take count
  if digits.length < count then none
  let code ← digits.foldlM (fun n c => (Markup.digit? 16 c).map (n * 16 + ·)) 0
  if code.isValidChar then some (Char.ofNat code, t.drop count) else none

/-- The character that an escape stands for, behind the backslash. -/
def escaped? : Reader Char
  | 'b' :: t => some ('\x08', t)
  | 't' :: t => some ('\t', t)
  | 'n' :: t => some ('\n', t)
  | 'f' :: t => some ('\x0C', t)
  | 'r' :: t => some ('\r', t)
  | '"' :: t => some ('"', t)
  | '\\' :: t => some ('\\', t)
  | 'u' :: t => codePoint? 4 t
  | 'U' :: t => codePoint? 8 t
  | _ => none

/-- Put a character before what a reader reads. -/
def cons (c : Char) (read : Option (Text × Text)) : Option (Text × Text) :=
  read.map fun (value, rest) => (c :: value, rest)

/-- A string with escapes, behind its opening mark. -/
def basic? (fuel : Nat) : Reader Text
  | [] => none
  | c :: t =>
    match fuel with
    | 0 => none
    | fuel + 1 =>
      if c = '"' then some ([], t)
      else if c = '\\' then (escaped? t).bind fun (c, t) => cons c (basic? fuel t)
      else if isPlain c then cons c (basic? fuel t)
      else none

/-- A string without escapes, behind its opening mark. -/
def literal? (t : Text) : Option (Text × Text) :=
  let value := t.takeWhile fun c => isPlain c && c != '\''
  (after? '\'' (t.drop value.length)).map (value, ·)

/-- The end of a string of several lines: three marks.  One or two more before them are part of
    the string. -/
def closing? (mark : Char) (t : Text) : Option (Text × Text) :=
  let run := (t.takeWhile (· == mark)).length
  if 3 ≤ run then
    let inside := min (run - 3) 2
    some (List.replicate inside mark, t.drop (inside + 3))
  else none

/-- Does the text, behind a backslash, end the line with nothing but blanks? -/
def endsLine? (t : Text) : Option Text := afterLineEnd? (skipBlanks t)

/-- The rest behind blanks and line ends. -/
def skipBlankLines (t : Text) : Text :=
  t.dropWhile fun c => c == ' ' || c == '\t' || c == '\n'

/-- The rest behind blanks and line ends, of either kind. -/
def skipContinued (fuel : Nat) (t : Text) : Text :=
  match fuel with
  | 0 => t
  | fuel + 1 =>
    match afterLineEnd? (skipBlankLines t) with
    | some t => skipContinued fuel t
    | none => skipBlankLines t

/-- A string of several lines, behind its opening marks.  In one with escapes a backslash at the
    end of a line goes on with the next character that is not blank. -/
def lines? (mark : Char) (escapes : Bool) (fuel : Nat) (t : Text) : Option (Text × Text) :=
  match fuel with
  | 0 => none
  | fuel + 1 =>
    match t with
    | [] => none
    | c :: rest =>
      if c = mark then
        match closing? mark t with
        | some read => some read
        | none => cons c (lines? mark escapes fuel rest)
      else if c = '\\' && escapes then
        match endsLine? rest with
        | some rest => lines? mark escapes fuel (skipContinued rest.length rest)
        | none => (escaped? rest).bind fun (c, rest) => cons c (lines? mark escapes fuel rest)
      else
        match afterLineEnd? t with
        | some rest => cons '\n' (lines? mark escapes fuel rest)
        | none => if isPlain c then cons c (lines? mark escapes fuel rest) else none

/-- The rest without a line end at its front. -/
def withoutLineEnd (t : Text) : Text := (afterLineEnd? t).getD t

/-- **A string.** -/
def text? : Reader Text
  | '"' :: '"' :: '"' :: t => lines? '"' true (t.length + 1) (withoutLineEnd t)
  | '\'' :: '\'' :: '\'' :: t => lines? '\'' false (t.length + 1) (withoutLineEnd t)
  | '"' :: t => basic? t.length t
  | '\'' :: t => literal? t
  | _ => none

/-! ## Keys -/

/-- **Extent** of a stretch of a document: how many characters of the document are left where the
    stretch begins and where it ends. -/
structure Extent where
  start : Nat
  stop : Nat
  deriving DecidableEq, Repr

/-- The extent of what a reader took off a text. -/
def Extent.between (text rest : Text) : Extent := ⟨text.length, rest.length⟩

/-- **Name**: one part of a key, with the extent in which it is written. -/
structure Name where
  text : Text
  extent : Extent
  deriving DecidableEq, Repr

/-- May the character stand in a name without quotes? -/
def isBare (c : Char) : Bool := c.isAlphanum || c == '-' || c == '_'

/-- The text of a name. -/
def nameText? : Reader Text
  | '"' :: t => basic? t.length t
  | '\'' :: t => literal? t
  | t =>
    let name := t.takeWhile isBare
    if name.isEmpty then none else some (name, t.drop name.length)

/-- One name of a key. -/
def name? : Reader Name := fun t =>
  (nameText? t).map fun (text, rest) => (⟨text, .between t rest⟩, rest)

/-- How many names a key may have, and how deep values may nest. -/
def depthLimit : Nat := 80

/-- Names with dots between them. -/
def names? (fuel : Nat) : Reader (List Name) := fun t =>
  match fuel with
  | 0 => none
  | fuel + 1 => do
    let (name, t) ← name? (skipBlanks t)
    match skipBlanks t with
    | '.' :: t =>
      let (names, t) ← names? fuel t
      return (name :: names, t)
    | t => return ([name], t)

/-- **A key**: names with dots between them, and blanks around each. -/
def key? : Reader (List Name) := names? (depthLimit - 1)

end XmlGraft.Toml
