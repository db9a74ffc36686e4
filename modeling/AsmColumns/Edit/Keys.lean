import AsmColumns.Comment.Tracker
import AsmColumns.Edit.Action
import AsmColumns.Line.Grammar
import AsmColumns.Settings.Basic

/-!
# Keys

What the keys of an assembly buffer do: the space, the colon, the hash, the comment delimiter and
the newline.  Each decision is made from the line, the cursor in it, the settings and, where they
matter, the comments of the line, and its outcome is a list of actions for the host to carry out.
A cursor outside the line is taken to be at the nearer end.

The space and the colon ask about the comments only where the answer can make a difference, so that
a line is not read for nothing.
-/

namespace AsmColumns
namespace Edit

open Comment (Convention)
open Line (Reading)

/-- The offset in the line nearest to the cursor. -/
def clamp (line : Text) (cursor : Int) : Nat :=
  min cursor.toNat line.length

/-- Whether the character before a position of the line is comment.  A position of the line is not
outside it, so there always is an answer. -/
def insideComment (r : Reading) (position : Nat) : Bool :=
  match Comment.isInside position [r] with
  | .ok inside => inside
  | .error _ => false

/-- Whether a space depends on the comments of the line: behind the margin in the first field. -/
def spaceAsks (s : Settings) (line : Text) (cursor : Int) : Bool :=
  let here := clamp line cursor
  here != 0 && here < s.stops.first && s.tabAfterOperation

/-- A space goes to the next tab stop at the margin and in the first field, and is a space elsewhere
and in comments. -/
def spaceKey (s : Settings) (inside : Bool) (line : Text) (cursor : Int) : List Action :=
  let here := clamp line cursor
  if here = 0 then [.moveToColumn (s.stops.nextStop 0)]
  else if spaceAsks s line cursor && !inside then [.moveToColumn (s.stops.nextStop here)]
  else [.insertChar [' ']]

/-- The bare word before the cursor, with the blanks around it. -/
structure LabelWord where
  lead : Nat
  length : Nat
deriving DecidableEq, Repr

/-- The word before the cursor, if nothing but blanks comes before it in the line and nothing but
blanks lies between it and the cursor. -/
def labelWord? (before : Text) : Option LabelWord :=
  let trimmed := before.trimRight
  let word := trimmed.takeTail Line.isLabelChar
  let lead := trimmed.dropTail Line.isLabelChar
  if word.isEmpty || !lead.allBlank then none else some ⟨lead.length, word.length⟩

/-- Whether a colon depends on the comments of the line: behind a bare word. -/
def colonAsks (line : Text) (cursor : Int) : Bool :=
  (labelWord? (line.take (clamp line cursor))).isSome

/-- A colon makes a label of a bare word: the blanks around the word go, the colon comes if it is
wanted, and the cursor moves on to the operation.  In comments it is a colon. -/
def colonKey (s : Settings) (inside : Bool) (line : Text) (cursor : Int) : List Action :=
  let here := clamp line cursor
  let colon : List Action := if s.colonAfterLabel then [.insertChar [':']] else []
  match labelWord? (line.take here) with
  | none => colon
  | some word =>
      if inside then colon
      else
        let stop := word.lead + word.length
        let tail : List Action := if stop < here then [.deleteRange stop here] else []
        let lead : List Action := if 0 < word.lead then [.deleteRange 0 word.lead] else []
        let column := if s.colonAfterLabel then word.length + 1 else word.length
        let move : List Action :=
          if s.newlineAfterLabel then [.insertNewline, .moveToColumn s.stops.first]
          else [.moveToColumn (s.stops.nextStop column)]
        tail ++ lead ++ colon ++ move

/-- A hash behind nothing but blanks is pulled to the margin. -/
def hashKey (line : Text) (cursor : Int) : List Action :=
  let here := clamp line cursor
  if 0 < here && Text.allBlank (line.take here) then [.deleteRange 0 here, .insertChar ['#']]
  else [.insertChar ['#']]

/-- The delimiter run that opens the first comment of a line. -/
def openingRun (delimiter : Char) (text : Text) (start : Nat) : Text :=
  let run := (text.drop start).takeWhile (· == delimiter)
  if run.isEmpty then [delimiter] else run

/-- Where the first comment of a line of comment starts, if it is one. -/
def commentAbove? (previous : Option Reading) : Option (Text × Nat) :=
  match previous with
  | some r =>
      match r.kind, r.comments with
      | .comment, span :: _ => some (r.text, span.start)
      | _, _ => none
  | none => none

/-- The comment key, for a delimiter of one character.  Right behind the run that opens a comment
it goes on with the comment on a new line; in the blanks at the start of a line below a comment it
goes on with that comment; in comment text it is a plain character; and otherwise it is the host's
business. -/
def delimiterKey (delimiter : Char) (repeatable : Bool) (r : Reading) (previous : Option Reading)
    (line : Text) (cursor : Int) : List Action :=
  let here := clamp line cursor
  let run := Text.takeTail (· == delimiter) (line.take here)
  let start := here - run.length
  if !run.isEmpty && r.isCommentAt start && !insideComment r start then
    let run := if repeatable then run else [delimiter]
    [.insertNewline, .moveToColumn start, .insertText (run ++ [' '])]
  else
    let inner : List Action :=
      if insideComment r here then [.insertChar [delimiter]]
      else [.delegate "comment-dwim".toList]
    match commentAbove? previous with
    | some (text, column) =>
        if 0 < here && Text.allBlank (line.take here) && !r.isCommentAt here then
          let run := if repeatable then openingRun delimiter text column else [delimiter]
          [.deleteRange 0 here, .moveToColumn column, .insertText (run ++ [' '])]
        else inner
    | none => inner

/-- The delimiter that the comment key types; there is no such key for a longer one. -/
def delimiterOf (conv : Convention) : Except Settings.Fault Char :=
  match conv.mark with
  | [delimiter] => .ok delimiter
  | _ =>
      .error ⟨Settings.Key.commentStyle.name, .text conv.style.name,
        "comment key needs a single-character delimiter"⟩

/-- A newline goes on at the operation. -/
def newlineKey (s : Settings) : List Action :=
  [.insertNewline, .moveToColumn s.stops.first]

end Edit
end AsmColumns
