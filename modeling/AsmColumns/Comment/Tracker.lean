import AsmColumns.Comment.Convention
import AsmColumns.Line.Reading
import AsmColumns.Settings.Basic

/-!
# The convention of a buffer

A tracker holds the comment convention that is active in a buffer, counts how often it has changed,
and keeps the readings of the last pass over the buffer, from which it tells whether a position
lies inside a comment.  A position outside the buffer is noted before it is answered.
-/

namespace AsmColumns
namespace Comment

open Line (Reading)

structure Tracker where
  convention : Convention
  version : Nat := 1
  lastPass : List Reading := []
deriving Inhabited

namespace Tracker

def ofStyle (style : Style) : Tracker :=
  { convention := .ofStyle style }

/-- Makes a style the active one.  Doing so again changes nothing. -/
def activate (tracker : Tracker) (style : Style) : Tracker :=
  if tracker.convention.style = style then tracker
  else { tracker with convention := .ofStyle style, version := tracker.version + 1 }

/-- The style that a name stands for. -/
def styleNamed (name : Value) : Except Settings.Rejection Style :=
  match Style.ofName? name.asName with
  | some style => .ok style
  | none => .error (.refusal Settings.Key.commentStyle.name name "unknown comment style")

/-- A tracker of the style that a name stands for. -/
def start (name : Value) : Except Settings.Rejection Tracker :=
  (styleNamed name).map ofStyle

/-- Makes the style of a name the active one; an unknown name changes nothing. -/
def activateNamed (tracker : Tracker) (name : Value) : Except Settings.Rejection Tracker :=
  (styleNamed name).map tracker.activate

def remember (tracker : Tracker) (pass : List Reading) : Tracker :=
  { tracker with lastPass := pass }

end Tracker

/-- Whether the character at an offset of the text is comment, where the lines of the text are
joined by one newline each.  There is no answer behind the text. -/
def commentAt? : (offset : Nat) → List Reading → Option Bool
  | _, [] => none
  | offset, r :: rest =>
      if offset < r.text.length then some (r.isCommentAt offset)
      else if offset = r.text.length then some false
      else commentAt? (offset - (r.text.length + 1)) rest

/-- Whether the character just before a position is comment.  No character stands before a position
outside the text, but the position is noted. -/
def isInside (position : Int) (lines : List Reading) : Except Decimal.Unwritable Bool :=
  if position < 0 then Decimal.noting position false
  else if position = 0 then .ok false
  else
    match commentAt? (position - 1).toNat lines with
    | some inside => .ok inside
    | none => Decimal.noting position false

end Comment
end AsmColumns
