/-
  Events — the tokens of a source at their places.

  Reading starts behind a byte-order mark.  A second mark is not markup either and is passed over
  without being counted, so that everything behind it is recorded as if it stood three bytes
  earlier: the ranges of the events tile the source from the first mark on, and each excerpt is what
  the source says in the range.  With at most one mark that is the token itself.

  * `Cursor.advance`    reads up to a byte offset, counting lines and columns
  * `place`             gives each token its range, its excerpt and its position
  * `Reading.ofSource`  the events of a source and the fault that ended it, if any

  Behind two marks a range may begin or end inside a character that takes several bytes, as for two
  marks before `<a>éé</a>`.  A reader that cuts the source by bytes cannot go on there and stops
  abruptly, without an error of this library.  Here the excerpt is then made of the characters that
  START in the range, and reading goes on.  The two readers agree wherever both give a result; what
  is proved about ranges is about texts with at most one mark, where every range ends between
  characters.

  The cursor runs along with the tokens, so that a place is found by going on from the last one and
  the text is passed once.
-/
import XmlGraft.Markup.Tree

namespace XmlGraft.Markup

/-- **Cursor**: how far a source was read. -/
structure Cursor where
  /-- The byte at which `rest` starts. -/
  offset : Nat
  position : Position
  rest : Text
  deriving DecidableEq, Repr

namespace Cursor

/-- Read the characters of `rest` that start before byte `stop`. -/
def advanceFrom (stop offset : Nat) (p : Position) : Text → Text × Cursor
  | [] => ([], ⟨offset, p, []⟩)
  | c :: t =>
    -- a character belongs to the piece in which it starts
    if offset < stop then
      let (past, cursor) := advanceFrom stop (offset + c.utf8Size) (p.step c) t
      (c :: past, cursor)
    else ([], ⟨offset, p, c :: t⟩)

/-- **Read up to byte `stop`**: the characters passed and the cursor behind them. -/
def advance (cursor : Cursor) (stop : Nat) : Text × Cursor :=
  advanceFrom stop cursor.offset cursor.position cursor.rest

end Cursor

/-- **Event**: a token at its place in the source. -/
structure Event where
  token : Token
  excerpt : Excerpt
  /-- Line and column of the first character; none when a character does not start there. -/
  position : Option Position
  deriving DecidableEq, Repr

/-- The byte an event starts at. -/
def Event.start (e : Event) : Nat := e.excerpt.range.start

/-- Give each token its place, the first one starting at byte `start`. -/
def place (start : Nat) (cursor : Cursor) : List Token → List Event
  | [] => []
  | token :: tokens =>
    let stop := start + token.written.size
    let (excerpt, next) := cursor.advance stop
    -- no position for an event that starts inside a character, which only a second mark brings
    -- about
    let position := if cursor.offset = start then some cursor.position else none
    ⟨token, ⟨⟨start, stop⟩, excerpt⟩, position⟩ :: place stop next tokens

/-- The text without a byte-order mark at its start. -/
def withoutMark : Text → Text
  | [] => []
  | c :: t => if c = byteOrderMark then t else c :: t

/-- **A source as events.** -/
structure Reading where
  events : List Event
  /-- The fault that ended the reading, and the byte it is reported at. -/
  misread : Option (TokenFault × Nat)
  deriving DecidableEq, Repr

/-- **Read a source.** -/
def Reading.ofSource (source : Source) : Reading :=
  let start := source.markSize
  let body := withoutMark source.text
  -- a second mark is dropped before scanning, while the ranges are counted with it
  let scanned := scan (withoutMark body)
  let events := place start ⟨start, .first, body⟩ scanned.tokens
  let stop := start + Text.size (scanned.tokens.flatMap Token.written)
  ⟨events, scanned.misread.map fun m => (m.fault, stop + m.offset)⟩

end XmlGraft.Markup
