import AsmColumns.Comment.Convention
import AsmColumns.Line.Reading

/-!
# The body of a comment

What a paragraph filler may set anew in a line's first comment: the text behind the delimiter run
and its blanks, up to the closing delimiter and the blanks before it.  A line of nothing but
comment also has a lead, the text that every line of the refilled paragraph starts with.

The spans of a reading made by hand may reach beyond its text, and then no body can be cut out.
-/

namespace AsmColumns
namespace Comment

open Line (Reading)

inductive BoundsFault where
  /-- A character beyond the end of the text was asked for. -/
  | pastEnd
  /-- The delimiters overlap. -/
  | invalid (bounds : Span.Invalid)
deriving DecidableEq, Repr

/-- The offset behind the opening delimiter of a comment from `start` to `stop`, or behind the
run that repeats it. -/
def bodyStart (conv : Convention) (text : Text) (start stop : Nat) : Except BoundsFault Nat :=
  if conv.mark.isPrefixOf (text.drop start) then
    match conv.repeatChar? with
    | none => .ok (start + conv.mark.length)
    | some c =>
        let behind := start + ((text.slice start stop).takeWhile (· == c)).length
        if behind < stop && text.length ≤ behind then .error .pastEnd else .ok behind
  else .ok start

/-- The offset of the closing delimiter, or the end of a comment without one. -/
def bodyStop (conv : Convention) (text : Text) (start stop : Nat) : Nat :=
  if conv.isBlock && conv.closing.isSuffixOf (text.slice start stop) then
    stop - conv.closing.length
  else stop

/-- The body between two offsets without the spaces and tabs around it. -/
def trimmedSpan (text : Text) (start stop : Nat) : Except BoundsFault Span :=
  if stop < start then .error (.invalid ⟨start, stop⟩)
  else if start < stop && text.length < stop then .error .pastEnd
  else
    let body := text.slice start stop
    let lead := (body.takeWhile Text.isPad).length
    .ok ⟨start + lead, (Text.dropTail Text.isPad (body.drop lead)).length⟩

/-- The body of the first comment of a line. -/
def bounds (conv : Convention) (r : Reading) : Except BoundsFault (Option Span) :=
  match r.comments with
  | [] => .ok none
  | span :: _ => do
      let start ← bodyStart conv r.text span.start span.stop
      let body ← trimmedSpan r.text start (bodyStop conv r.text start span.stop)
      return some body

/-- The start of every refilled line: indentation, delimiter run and one space, or only the
indentation on a line that another line's comment runs through. -/
def fillLead (conv : Convention) (r : Reading) : Except BoundsFault (Option Text) :=
  match r.kind, r.comments with
  | .comment, span :: _ => do
      let body ← bounds conv r
      let start := (body.map (·.start)).getD 0
      if conv.mark.isPrefixOf (r.text.drop span.start) then
        let run := (r.text.slice span.start start).trimRight
        return some (r.text.take span.start ++ run ++ [' '])
      else return some (r.text.take start)
  | _, _ => .ok none

end Comment
end AsmColumns
