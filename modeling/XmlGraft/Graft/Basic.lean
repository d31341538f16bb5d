/-
  Graft — one changed element put into a text that stays as it is otherwise.

  The writer gives everything that was read back as it stood, but it does not lay out what was built
  in memory.  So the changed element is taken out of the tree, a marker is put in its place, the
  document is written, and the marker is replaced by the element laid out at the indentation of its
  surroundings.

  1. **Site** (`site?`): from the target upwards to the first element whose parent was read.
  2. **Replacement** (`replacement`): the lines of the element, each behind a line terminator and
     the indentation of its level.
  3. **Marker** (`placed?`): one that the source does not hold and the written document holds once.

  An element that was read and did not change needs no graft: the document is written as it is.

  The document is written by `Document.written`, which puts every element together.  For the trees
  that an update makes, marked or not, copying what did not change gives the same text
  (`Graft.Copies`), so nothing here depends on which of the two is meant.

  Markers come from a supply, a function from numbers; where it takes them from is left open.  A
  marker is counted without overlap, so one that overlaps itself may be replaced a few characters
  too early, which is seen in the text and not reported.  The search stops after `maxAttempts`
  markers.

  The order of the checks decides what is told when several things are wrong: the unit first, then
  the target, then its parent, then the layout, and the markers last.
-/
import XmlGraft.Edit.Target
import XmlGraft.Layout.Convention
import XmlGraft.Layout.Printed
import XmlGraft.Settings.Decode

namespace XmlGraft

open Markup

/-- **Why a graft fails.** -/
inductive GraftFault
  | settings (fault : SettingsFault)
  | target (fault : TargetFault)
  /-- No marker could be told from the text around it. -/
  | noMarker (attempts : Nat)
  /-- The element could not be laid out. -/
  | unrenderable (error : Markup.Error)
  deriving DecidableEq, Repr

/-- **What a graft did.** -/
structure Grafted where
  /-- The whole new text. -/
  text : Text
  /-- Is it another text than the source? -/
  changed : Bool
  /-- The name of the element that was laid out anew. -/
  element : Option Text
  /-- Where the element that it stands in was read. -/
  anchor : Option Position
  deriving DecidableEq, Repr

namespace Graft

/-! ## The site -/

/-- **Site**: an element by its parent and its index there. -/
structure Site where
  parent : Address
  index : Nat
  deriving DecidableEq, Repr

/-- The address of the element at a site. -/
def Site.address (s : Site) : Address := s.parent.child s.index

/-- The lowest element on the way up whose parent was read; `reversed` holds the indices from the
    element upwards. -/
def siteAbove? (root : Element) : List Nat → Option Site
  | [] => none
  | i :: reversed =>
    let parent : Address := ⟨reversed.reverse⟩
    if (root.at? parent).any (·.isLocated) then some ⟨parent, i⟩ else siteAbove? root reversed

/-- **The site of a target.** -/
def site? (root : Element) (target : Address) : Except TargetFault Site :=
  if (root.at? target).isNone then .error (.nothingAt target)
  else
    match siteAbove? root target.indices.reverse with
    | some site => .ok site
    | none => .error .rootElement

/-! ## The replacement -/

/-- **Surroundings**: how an element is laid out at its site. -/
structure Surroundings where
  /-- The indentation of the parent. -/
  base : Text
  unit : IndentUnit
  terminator : Text

/-- One line behind its terminator; a line without content is not indented. -/
def Surroundings.line (s : Surroundings) (line : Text) : Text :=
  s.terminator ++ if line.isEmpty then [] else s.base ++ s.unit.text ++ line

/-- Lines in the place of an element.  Behind the last child the parent's end tag begins a line of its
    own. -/
def Surroundings.block (s : Surroundings) (lines : List Text) (isLast : Bool) : Text :=
  lines.flatMap s.line ++ if isLast then s.terminator ++ s.base else []

/-- **The text in the place of an element.** -/
def Surroundings.replacement (s : Surroundings) (e : Element) (isLast : Bool) : Text :=
  s.block (Layout.lines s.unit e) isLast

/-- The unit and the terminator that the settings ask for in a document, below a parent that was
    read at a position. -/
def Surroundings.of (d : Document) (s : Settings) (unit : IndentUnit) (anchor : Position) :
    Surroundings where
  base := d.source.baseIndent anchor
  unit := if s.inferUnit then (Layout.inferUnit d).getD unit else unit
  terminator := s.lineEnding.terminator d.source.text

/-! ## The marker -/

/-- The children without the text of spaces before child `i`, and the index of that child then. -/
def withoutLayoutBefore (children : List Node) (i : Nat) : List Node × Nat :=
  -- the first line of the replacement brings its own break, so the old one goes
  if 0 < i ∧ (children[i - 1]?).any Node.isLayout then (children.eraseIdx (i - 1), i - 1)
  else (children, i)

/-- The document with child `i` of the parent replaced by a text. -/
def mark (d : Document) (parent : Address) (children : List Node) (i : Nat) (marker : Text) :
    Text :=
  let marked := children.set i (.ofText marker)
  match d.root.changeAt? parent (·.editChildren fun _ => marked) with
  | some root => { d with root }.written
  | none => d.written

/-- How many markers are tried. -/
def maxAttempts : Nat := 8

/-- The text with the replacement in the place of a marker, if the marker is good: the source does
    not hold it, and the marked document holds it once. -/
def placed? (source : Text) (marked : Text → Text) (replacement marker : Text) : Option Text :=
  if source.contains marker then none
  else if Text.occurrences marker (marked marker) = 1 then
    some (Text.replaceFirst (marked marker) marker replacement)
  else none

/-- **The first good marker** of a supply, tried from number `n` on, with the text it leads to and
    how many markers were drawn. -/
def firstPlaced (place? : Text → Option Text) (markers : Nat → Text) (n : Nat) :
    Nat → Option Text × Nat
  | 0 => (none, n)
  | left + 1 =>
    match place? (markers n) with
    | some text => (some text, n + 1)
    | none => firstPlaced place? markers (n + 1) left

end Graft

/-! ## The graft -/

namespace Graft

/-- The lines of an element put in its place below the parent, by way of a marker. -/
def place (d : Document) (s : Surroundings) (markers : Nat → Text) (site : Site)
    (parent element : Element) (anchor : Position) (lines : List Text) :
    Except GraftFault Grafted × Nat :=
  let (children, i) := withoutLayoutBefore parent.children site.index
  let replacement := s.block lines (i + 1 == children.length)
  let source := d.source.text
  let place? := placed? source (mark d site.parent children i) replacement
  match firstPlaced place? markers 0 maxAttempts with
  | (some text, drawn) => (.ok ⟨text, text != source, some element.name, some anchor⟩, drawn)
  | (none, drawn) => (.error (.noMarker maxAttempts), drawn)

/-- The graft of an element that changed, at its site below a parent that was read. -/
def replace (d : Document) (s : Settings) (unit : IndentUnit) (markers : Nat → Text)
    (site : Site) (anchor : Position) : Except GraftFault Grafted × Nat :=
  let surroundings := Surroundings.of d s unit anchor
  match d.root.at? site.parent with
  | none => (.error (.target (.nothingAt site.parent)), 0)
  | some parent =>
    match parent.childAt? site.index with
    | none => (.error (.target (.nothingAt site.address)), 0)
    | some element =>
      match Layout.printedLines surroundings.unit element with
      | .error error => (.error (.unrenderable error), 0)
      | .ok lines => place d surroundings markers site parent element anchor lines

/-- The graft at a site. -/
def atSite (d : Document) (s : Settings) (unit : IndentUnit) (markers : Nat → Text)
    (site : Site) : Except GraftFault Grafted × Nat :=
  match d.root.at? site.address with
  | none => (.error (.target (.nothingAt site.address)), 0)
  | some element =>
    match (d.root.at? site.parent).bind (·.position?) with
    | none => (.error (.target (.notRead site.parent)), 0)
    | some anchor =>
      -- here a change elsewhere in the tree is written, too, in its generated form
      if element.isPristine then
        let text := d.written
        (.ok ⟨text, text != d.source.text, none, none⟩, 0)
      else replace d s unit markers site anchor

end Graft

/-- **Graft the change at a target into the text of the document**, with markers from a supply;
    also how many markers were drawn. -/
def graftCounted (d : Document) (target : Address) (s : Settings) (markers : Nat → Text) :
    Except GraftFault Grafted × Nat :=
  match s.unit with
  | .error fault => (.error (.settings fault), 0)
  | .ok unit =>
    match Graft.site? d.root target with
    | .error fault => (.error (.target fault), 0)
    | .ok site => Graft.atSite d s unit markers site

/-- **Graft the change at a target into the text of the document.** -/
def graft (d : Document) (target : Address) (s : Settings) (markers : Nat → Text) :
    Except GraftFault Grafted :=
  (graftCounted d target s markers).1

end XmlGraft
