/-
  Settings — how new lines are laid out.

  The indent unit is kept as it was given and only checked when it is used: settings that come from
  a program may hold one that is none.  A graft with such settings fails before it looks for its
  site.

  * `LineEnding`         what ends an inserted line
  * `Settings`           the settings
  * `Settings.standard`  what holds where nothing is said

  The line ending of a document is what most of its lines end in, and a line feed where there are as
  many of both.
-/
import XmlGraft.Layout.IndentUnit
import XmlGraft.Source.Basic

namespace XmlGraft

/-- **What ends an inserted line.** -/
inductive LineEnding
  /-- What most lines of the document end in. -/
  | auto
  | lf
  | crlf
  deriving DecidableEq, Repr

namespace LineEnding

/-- The line terminator for a document. -/
def terminator (e : LineEnding) (document : Text) : Text :=
  match e with
  | auto => dominantEnding document
  | lf => ['\n']
  | crlf => ['\r', '\n']

/-- The name in settings. -/
def name : LineEnding → Text
  | auto => ['a', 'u', 't', 'o']
  | lf => ['l', 'f']
  | crlf => ['c', 'r', 'l', 'f']

/-- All of them. -/
def all : List LineEnding := [auto, lf, crlf]

/-- The line ending with a name. -/
def ofName? (name : Text) : Option LineEnding := all.find? (·.name == name)

/-- A name stands for the line ending it is the name of. -/
theorem ofName?_name (e : LineEnding) : ofName? e.name = some e := by cases e <;> rfl

end LineEnding

/-- **Settings**: how new lines are laid out. -/
structure Settings where
  /-- What one level is indented by: a run of spaces or a run of tabs. -/
  indentUnit : Text
  /-- Take the unit that the document uses, if it shows one. -/
  inferUnit : Bool
  lineEnding : LineEnding
  deriving DecidableEq, Repr

namespace Settings

/-- The settings where nothing is said. -/
def standard : Settings := ⟨IndentUnit.standard.text, false, .auto⟩

/-- The indent unit, if what was given is one. -/
def unit? (s : Settings) : Option IndentUnit := IndentUnit.ofText? s.indentUnit

end Settings

end XmlGraft
