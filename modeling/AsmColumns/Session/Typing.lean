import AsmColumns.Session.Basic

/-!
# Typing into a buffer

A host keeps a buffer with a cursor, and a session beside it.  A key is decided on the line that
holds the cursor and on what the host says about the line above: how it is read, and whether it
leaves a comment open.  A host that says nothing has the lines above read from the top.
-/

namespace AsmColumns

open Edit (Action Buffer)
open Line (Reading)

inductive TypedKey where
  | space
  | colon
  | hash
  | comment
  | newline
  | tab
  | left
  | home
  | literal (text : Text)
deriving DecidableEq, Repr

/-- What is said about the line above the cursor. -/
structure Above where
  reading : Option Reading := none
  continued : Bool := false

/-- A key, with what the host says about the line above the cursor. -/
structure Stroke where
  key : TypedKey
  said : Option Above := none

namespace Session

/-- Reads the lines above the cursor from the top. -/
def readAbove (s : Session) (buffer : Buffer) : Above × Session :=
  let start := Buffer.lineStart buffer.text (Buffer.offsetAt buffer.text buffer.cursor)
  if start = 0 then ({}, s)
  else
    let lines := (Text.lines (buffer.text.take (start - 1))).map some
    let (readings, reader) := s.reader.readLines lines false (some s.convention)
    let last := readings.getLast?
    (⟨last, last.any (·.endsOpen)⟩, { s with reader })

/-- The actions of a key on the line of the cursor. -/
def keyActions (s : Session) (buffer : Buffer) (above : Above) :
    TypedKey → Except KeyFault (List Action) × Session
  | .space => s.space (some buffer.line) buffer.column above.continued
  | .colon => s.colon (some buffer.line) buffer.column above.continued
  | .hash => (s.hash (some buffer.line) buffer.column, s)
  | .comment => s.comment (some buffer.line) buffer.column above.reading above.continued
  | .newline => (s.newline, s)
  | .tab => s.indentLine (some buffer.line) above.continued
  | .left => (.ok [.moveToColumn (max 0 (buffer.column - 1))], s)
  | .home => (.ok [.moveToColumn 0], s)
  | .literal text => (.ok [.insertText text], s)

def strokeActions (s : Session) (buffer : Buffer) (stroke : Stroke) :
    Except KeyFault (List Action) × Session :=
  match stroke.said with
  | some above => s.keyActions buffer above stroke.key
  | none =>
      let (above, s) := s.readAbove buffer
      s.keyActions buffer above stroke.key

/-- Strikes a key and carries out its actions.  A key that fails leaves the buffer as it is. -/
def strike (s : Session) (buffer : Buffer) (stroke : Stroke) :
    Except KeyFault (List Action × Buffer) × Session :=
  match s.strokeActions buffer stroke with
  | (.error f, s) => (.error f, s)
  | (.ok actions, s) =>
      match buffer.runChecked actions with
      | .error _ => (.error .tooWide, s)
      | .ok next => (.ok (actions, next), s)

end Session
end AsmColumns
