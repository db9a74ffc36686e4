import AsmColumns.Layout.Column

/-!
# The canonical layout of a line

A line is set in columns: the label or the condition at the margin, the directive or operation at
its tab stop, the operand behind one space, and the comment in the comment column or, if the code
reaches that far, behind one space.  A line whose parts cannot be moved one by one, because its
comment starts before its code ends or because it has no parts, is only indented.  The lines inside
a comment keep their shape.
-/

namespace AsmColumns
namespace Layout

open Comment (Convention)
open Line (Reading)

/-- Whether a line is indented as a whole. -/
def isRigid (r : Reading) : Bool :=
  match r.kind, r.code.getLast? with
  | .unknown, _ => true
  | _, none => true
  | _, some (_, last) => r.comments.head?.any fun comment => comment.start < last.stop

/-- The directive or the operation of a line.  An empty directive gives way to the operation. -/
def head? (r : Reading) : Option Span :=
  match r.directive with
  | some span => if span.length == 0 then r.operation else some span
  | none => r.operation

/-- What stands at the margin before the head of the line: its label, or its condition. -/
def margin (r : Reading) : Text :=
  match r.label with
  | some label => label.of r.text
  | none =>
      match r.kind, r.operation with
      | .operation, some operation => Text.trim (r.text.take operation.start)
      | _, _ => []

/-- Whether the head stands at the tab stop behind the margin text, and not at the line's own
column. -/
def followsMargin (r : Reading) : Bool :=
  r.label.isSome || !(margin r).isEmpty

/-- The column of the head. -/
def headColumn (stops : TabStops) (column : Int) (r : Reading) : Int :=
  if followsMargin r then stops.nextStop (margin r).length else column

/-- The code of the line in its columns. -/
def codeFields (stops : TabStops) (column : Int) (r : Reading) : Text :=
  match head? r with
  | none => margin r
  | some head =>
      let code := (margin r).padRight (headColumn stops column r) ++ head.of r.text
      match r.operand with
      | none => code
      | some operand => code ++ ' ' :: operand.of r.text

/-- Brings a comment to its column, or one space behind code that reaches it. -/
def padToComment (column : Int) (code : Text) : Text :=
  if code.length < column then code.padRight column
  else if code.isEmpty then code
  else code ++ [' ']

/-- The code, and the comment behind it. -/
def fields (stops : TabStops) (column commentColumn : Int) (r : Reading) : Text :=
  let code := codeFields stops column r
  match r.commentStart? with
  | none => code
  | some start => padToComment commentColumn code ++ Text.trimRight (r.text.drop start)

/-- A line that is read as comment: moved to its column if it opens there. -/
def commentLine (conv : Convention) (column : Int) (text : Text) : Text :=
  if conv.mark.isPrefixOf text.trimLeft then Text.spaces column ++ text.trim
  else text.trimRight

/-- The layout of a line that belongs at `column`. -/
def line (conv : Convention) (stops : TabStops) (column commentColumn : Int) (r : Reading) :
    Text :=
  match r.kind with
  | .blank => []
  | .comment => commentLine conv column r.text
  | _ =>
      if isRigid r then Text.trimRight (Text.spaces column ++ r.text.trim)
      else (fields stops column commentColumn r).trimRight

/-! ## Pages with parts missing -/

/-- Why a line cannot be laid out. -/
inductive Fault where
  /-- A part of the page or of the reading is missing. -/
  | missingPart
  /-- The convention has no opening delimiter to look for. -/
  | noOpening
  /-- The comment column is no integer. -/
  | badCommentColumn
  /-- The next tab stop would be a multiple of zero. -/
  | zeroWidth
  /-- A run of spaces would be too long for any text. -/
  | tooWide
deriving DecidableEq, Repr

def checkWidth (column : Int) : Except Fault Unit :=
  if column < -Text.maxRun - 1 || Text.maxRun < column then .error .tooWide else .ok ()

/-- The column that a comment is padded to, if the code before it has the given length. -/
def Page.commentStopBehind (page : Page) (length : Nat) : Except Fault Int :=
  match page.commentColumn with
  | .int n => .ok n
  | .bool b => .ok (if b then 1 else 0)
  | .float .nan => .ok 0
  | .float (.infinite true) => .ok 0
  | .float (.finite negative mantissa exponent) =>
      let column := Decimal.Double.ceiling negative mantissa exponent
      if length < column then .error .badCommentColumn else .ok column
  | _ => .error .badCommentColumn

/-- The tab stops of the page, if the margin text has a stop behind it. -/
def Page.stopsBehind (page : Page) (length : Nat) : Except Fault TabStops :=
  match page.stops with
  | none => .error .missingPart
  | some stops => if (stops.nextStop? length).isNone then .error .zeroWidth else .ok stops

/-- The layout of a line that is set in columns. -/
def Page.setFields (page : Page) (r : Reading) : Except Fault Text := do
  if r.label.isNone && r.kind == .operation && r.operation.isNone then
    throw .missingPart
  let column := page.column r
  let stops ← if followsMargin r then page.stopsBehind (margin r).length else .ok default
  if (head? r).isSome then
    checkWidth (headColumn stops column r)
  let code := codeFields stops column r
  if r.commentStart?.isNone then
    return code.trimRight
  let commentColumn ← page.commentStopBehind code.length
  if code.length < commentColumn then
    checkWidth commentColumn
  return (fields stops column commentColumn r).trimRight

/-- The layout of a line on a page, or the first fault on the way to it. -/
def Page.line (page : Page) (r : Reading) : Except Fault Text :=
  let column := page.column r
  match r.kind with
  | .blank => .ok []
  | .comment =>
      match page.convention with
      | none => .error .missingPart
      | some conv =>
          if conv.opening.isNone then .error .noOpening
          else do
            if conv.mark.isPrefixOf r.text.trimLeft then checkWidth column
            return commentLine conv column r.text
  | _ =>
      if isRigid r then do
        checkWidth column
        return Text.trimRight (Text.spaces column ++ r.text.trim)
      else page.setFields r

/-- The layout of a line that may have no reading. -/
def Page.lineOf (page : Page) : Option Reading → Except Fault Text
  | none => .error .missingPart
  | some r => page.line r

end Layout
end AsmColumns
