import Bibliography.Source.Reading

/-!
Reading step by step from any place of a text. A cursor remembers its place and
the draft of the document; a failing step leaves it where reading stopped, with
whatever had been read until then. The place may lie beyond the end, where
there is nothing left to read.
-/

namespace Bibliography.Source

open Text

structure Cursor where
  text : Text
  position : Nat := 0
  draft : Draft := {}

namespace Cursor

def remaining (cursor : Cursor) : Text := cursor.text.drop cursor.position

/-- Moves on to where the rest of the remaining text starts. -/
def moveTo (cursor : Cursor) (rest : Text) : Cursor :=
  { cursor with position := cursor.position + (cursor.remaining.length - rest.length) }

def seek (cursor : Cursor) (position : Nat) : Cursor := { cursor with position }

/-- The line of a position, counted from one. -/
def lineAt (cursor : Cursor) (position : Nat) : Nat :=
  lineFeeds (cursor.text.take position) + 1

def peek (cursor : Cursor) : Option Char := cursor.remaining.head?

def skipBlanks (cursor : Cursor) : Cursor := cursor.moveTo (skipBlank cursor.remaining)

def fail {Result : Type} (cursor : Cursor) (fault : Fault) :
    Cursor × Except ParseError Result :=
  ({ cursor.moveTo fault.rest with draft := cursor.draft.keep fault.salvage },
    .error (fault.locate cursor.text))

def run {Result : Type} (cursor : Cursor) (reader : Text → Except Fault (Result × Text)) :
    Cursor × Except ParseError Result :=
  match reader cursor.remaining with
  | .error fault => cursor.fail fault
  | .ok (result, rest) => (cursor.moveTo rest, .ok result)

def readBraced (cursor : Cursor) : Cursor × Except ParseError Text :=
  cursor.run Source.readBraced

/-- The opening quote is passed over even at the end of the text. -/
def readQuoted (cursor : Cursor) : Cursor × Except ParseError Text :=
  let (after, outcome) := cursor.run Source.readQuoted
  if cursor.remaining = [] then ({ after with position := after.position + 1 }, outcome)
  else (after, outcome)

def readValue (cursor : Cursor) : Cursor × Except ParseError Value :=
  cursor.run Source.readValue

def expect (cursor : Cursor) (allowed context : Text) : Cursor × Except ParseError Char :=
  cursor.run (Source.expect allowed context)

def runBlock {Result : Type} (cursor : Cursor) (reader : Text → Except Fault (Result × Text))
    (items : Result → List Item) : Cursor × Except ParseError Unit :=
  match cursor.run reader with
  | (after, .error error) => (after, .error error)
  | (after, .ok result) =>
      ({ after with draft := after.draft.addAll (items result) }, .ok ())

/-- A comment in braces starts at the brace just before the place of the cursor.
At the start of the text its last character stands in for that brace. -/
def readComment (cursor : Cursor) (enclosure : Enclosure) : Cursor × Except ParseError Unit :=
  match enclosure, cursor.position with
  | .parens, _ => cursor.runBlock (Source.readComment .parens) (List.map .comment)
  | .braces, position + 1 =>
      (cursor.seek position).runBlock (Source.readComment .braces) (List.map .comment)
  | .braces, 0 =>
      let last := cursor.text.drop (cursor.text.length - 1)
      match Source.readComment .braces (last ++ cursor.text) with
      | .error fault => (cursor.moveTo fault.rest, .error ⟨lineOf cursor.text last, fault.cause⟩)
      | .ok (comments, rest) =>
          let after := cursor.moveTo rest
          ({ after with draft := after.draft.addAll (comments.map .comment) }, .ok ())

def readPreamble (cursor : Cursor) (enclosure : Enclosure) (opening : Nat) :
    Cursor × Except ParseError Unit :=
  if cursor.draft.document.preamble.isSome then
    (cursor, .error ⟨cursor.lineAt opening, .secondPreamble⟩)
  else cursor.runBlock (Source.readPreamble enclosure) fun value => [.preamble value]

def readAbbreviation (cursor : Cursor) (enclosure : Enclosure) :
    Cursor × Except ParseError Unit :=
  cursor.runBlock (Source.readAbbreviation enclosure) fun abbreviation =>
    [.abbreviation abbreviation]

def readEntry (cursor : Cursor) (kind : Text) (enclosure : Enclosure) (opening : Nat) :
    Cursor × Except ParseError Unit :=
  cursor.runBlock (Source.readEntry kind enclosure (cursor.text.drop opening)) fun entry =>
    [.entry entry]

/-- Reads the block that opens at a position, which need not be the current one. -/
def readBlock (cursor : Cursor) (opening : Nat) : Cursor × Except ParseError Unit :=
  let start := cursor.text.drop opening
  match readHeader? start with
  | none => (cursor, .error ⟨cursor.lineAt opening, .missingBlock⟩)
  | some header =>
      (cursor.seek (cursor.text.length - header.body.length)).runBlock
        (fun _ => Source.readBlock cursor.draft.document.preamble.isSome start header) id

def readAll (cursor : Cursor) : Cursor × Except ParseError Document :=
  let (items, ending) := readItems cursor.draft.document.preamble.isSome cursor.remaining
  let filled := { cursor with draft := cursor.draft.addAll items }
  match ending with
  | .stopped fault => filled.fail fault
  | .finished overrun =>
      let finished := filled.draft.finish
      ({ filled with
          position := filled.position + filled.remaining.length + overrun
          draft := finished }, .ok finished.document)

end Cursor

end Bibliography.Source
