import AsmColumns.Decimal.Integer
import AsmColumns.Text.Quoted

/-!
# Edit actions

What a key does to a buffer is a list of primitive actions.  Insertions happen at the cursor and
carry it along.  A deletion is given in columns of the cursor's line; a cursor behind it shifts
left with the text, and one inside it lands on its start.  A move to a column further right first
passes over the spaces that are there and then inserts the missing ones.

A cursor left of the text counts from its end, as far as the text reaches, and one behind the text
acts at its end.
-/

namespace AsmColumns
namespace Edit

inductive Action where
  | insertChar (text : Text)
  | insertText (text : Text)
  | deleteRange (start stop : Int)
  | moveToColumn (column : Int)
  | insertNewline
  | delegate (command : Text)
deriving DecidableEq, Repr

/-- A text and the cursor in it. -/
structure Buffer where
  text : Text
  cursor : Int
deriving DecidableEq, Repr

namespace Buffer

/-- The offset that a position stands for. -/
def offsetAt (text : Text) (position : Int) : Nat :=
  if position < 0 then (text.length + position).toNat else min position.toNat text.length

/-- The offset at which the line that holds an offset starts. -/
def lineStart (text : Text) (offset : Nat) : Nat :=
  offset - (Text.takeTail (· != '\n') (text.take offset)).length

/-- The rest of the line from an offset on. -/
def lineRest (text : Text) (offset : Nat) : Text :=
  (text.drop offset).takeWhile (· != '\n')

/-- The line that holds the cursor. -/
def line (buffer : Buffer) : Text :=
  (buffer.text.drop (lineStart buffer.text (offsetAt buffer.text buffer.cursor))).takeWhile
    (· != '\n')

def insert (buffer : Buffer) (piece : Text) : Buffer :=
  let offset := offsetAt buffer.text buffer.cursor
  ⟨buffer.text.take offset ++ piece ++ buffer.text.drop offset, buffer.cursor + piece.length⟩

def delete (buffer : Buffer) (start stop : Int) : Buffer :=
  let margin := lineStart buffer.text (offsetAt buffer.text buffer.cursor)
  let start := margin + start
  let stop := margin + stop
  let text := buffer.text.take (offsetAt buffer.text start) ++
    buffer.text.drop (offsetAt buffer.text stop)
  let cursor :=
    if stop ≤ buffer.cursor then buffer.cursor - (stop - start)
    else if start < buffer.cursor then start
    else buffer.cursor
  ⟨text, cursor⟩

/-- The column of the cursor in its line. -/
def column (buffer : Buffer) : Int :=
  buffer.cursor - lineStart buffer.text (offsetAt buffer.text buffer.cursor)

/-- The number of spaces at the cursor that a move over `gap` columns reuses. -/
def reusable (buffer : Buffer) (gap : Int) : Nat :=
  let rest := lineRest buffer.text (offsetAt buffer.text buffer.cursor)
  min gap.toNat (rest.takeWhile (· == ' ')).length

def moveTo (buffer : Buffer) (column : Int) : Buffer :=
  let margin := lineStart buffer.text (offsetAt buffer.text buffer.cursor)
  let gap := column - buffer.column
  if 0 < gap then
    let reused := buffer.reusable gap
    let offset := offsetAt buffer.text (buffer.cursor + reused)
    ⟨buffer.text.take offset ++ Text.spaces (gap - reused) ++ buffer.text.drop offset,
      buffer.cursor + gap⟩
  else ⟨buffer.text, margin + column⟩

/-- What an action does to a buffer; a delegated command leaves it alone. -/
def act (buffer : Buffer) : Action → Buffer
  | .insertChar piece => buffer.insert piece
  | .insertText piece => buffer.insert piece
  | .insertNewline => buffer.insert ['\n']
  | .deleteRange start stop => buffer.delete start stop
  | .moveToColumn column => buffer.moveTo column
  | .delegate _ => buffer

def run (buffer : Buffer) (actions : List Action) : Buffer :=
  actions.foldl act buffer

/-- A run of spaces too long for any text was asked for. -/
structure TooWide where
deriving DecidableEq, Repr

/-- What an action does to a buffer, unless it asks for too many spaces. -/
def actChecked (buffer : Buffer) (action : Action) : Except TooWide Buffer :=
  match action with
  | .moveToColumn column =>
      let gap := column - buffer.column
      if Text.maxRun < gap - buffer.reusable gap then .error {} else .ok (buffer.act action)
  | _ => .ok (buffer.act action)

def runChecked (buffer : Buffer) : List Action → Except TooWide Buffer
  | [] => .ok buffer
  | action :: rest =>
      match buffer.actChecked action with
      | .error e => .error e
      | .ok next => next.runChecked rest

end Buffer

namespace Action

/-- Whether the columns of an action can be written. -/
def isWritable : Action → Bool
  | .deleteRange start stop => Decimal.isWritable start && Decimal.isWritable stop
  | .moveToColumn column => Decimal.isWritable column
  | _ => true

/-- The written form of an action. -/
def describe : Action → String
  | .insertChar piece => "insert " ++ String.ofList piece.quoted
  | .insertText piece => "insert " ++ String.ofList piece.quoted
  | .deleteRange start stop => s!"delete [{start}, {stop})"
  | .moveToColumn column => s!"column {column}"
  | .insertNewline => "newline"
  | .delegate command => "host " ++ String.ofList command

end Action

/-- The written forms of actions, if each of them has one. -/
def describe (actions : List Action) : Except Decimal.Unwritable (List String) :=
  if actions.all (·.isWritable) then .ok (actions.map Action.describe) else .error {}

end Edit
end AsmColumns
