/-
  Error — what can be wrong with a document.

  Each kind of error knows the byte it points at, where there is one.  `message` is the text for
  people; `label` is what stands beside the marked place in a report.

  * `Error`           the kinds of errors
  * `Error.message`   the error in words
  * `Error.offset?`   the byte it points at

  The texts are part of what the library promises, for tools show them as they are.  Two kinds point
  at no byte: a text without any element has no place that is at fault, and an element that cannot
  be laid out need not come from a text.
-/
import XmlGraft.Text.Basic

namespace XmlGraft.Markup

/-- **What is wrong with a document.** Offsets are bytes into the text that was read. -/
inductive Error
  /-- The markup itself cannot be read. -/
  | malformed (reason : String) (offset : Option Nat)
  /-- The text ended while elements were open. -/
  | unfinished (expected : String) (offset : Option Nat)
  /-- An end tag does not close the innermost open element. -/
  | mismatched (expected found : String) (offset : Option Nat)
  /-- Markup that can be read, in a place where it may not stand. -/
  | misplaced (reason : String) (offset : Option Nat)
  /-- There is no element at all. -/
  | noRoot
  /-- A second element at the top level. -/
  | secondRoot (offset : Option Nat)
  /-- An element could not be laid out. -/
  | unrenderable (reason : String)
  deriving DecidableEq, Repr

namespace Error

/-- The byte the error points at. -/
def offset? : Error → Option Nat
  | malformed _ offset => offset
  | unfinished _ offset => offset
  | mismatched _ _ offset => offset
  | misplaced _ offset => offset
  | secondRoot offset => offset
  | noRoot => none
  | unrenderable _ => none

/-- The error in words. -/
def message : Error → String
  | malformed reason _ => "XML syntax error: " ++ reason
  | unfinished expected _ => "unexpected end of input, expected " ++ expected
  | mismatched expected found _ =>
    s!"mismatched end tag: expected </{expected}>, found </{found}>"
  | misplaced reason _ => "invalid XML structure: " ++ reason
  | noRoot => "empty XML document: no root element found"
  | secondRoot _ => "invalid XML: multiple root elements"
  | unrenderable reason => "failed to render XML: " ++ reason

/-- What stands beside the marked place in a report. -/
def label : Error → String
  | malformed _ _ => "syntax error here"
  | unfinished _ _ => "this element is never closed"
  | mismatched _ _ _ => "this end tag does not match"
  | misplaced _ _ => "not allowed here"
  | secondRoot _ => "second root element starts here"
  | noRoot => "here"
  | unrenderable _ => "here"

end Error

end XmlGraft.Markup
