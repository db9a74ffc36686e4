import AsmColumns.Line.Reading

/-!
# Highlighting a line

A line as it is shown: its text with tabs narrowed to one space and without the controls that move
the cursor, and the styles of its stretches, in the order in which they are laid on.
-/

namespace AsmColumns
namespace Command

open Line (Part Reading)

structure Highlight where
  plain : Text
  styles : List (Nat × Nat × String)
deriving DecidableEq, Repr

namespace Highlight

def partStyle : Part → String
  | .label => "bold yellow"
  | .directive => "magenta"
  | .operation => "bold cyan"
  | .operand => "white"
  | .condition => "blue"

def variableStyle : String := "green"

def commentStyle (isDoc : Bool) : String :=
  if isDoc then "bold dim" else "dim italic"

/-- Controls that are left out: bell, backspace, vertical tab, form feed, carriage return. -/
def isDropped (c : Char) : Bool :=
  c.toNat == 7 || c.toNat == 8 || c.toNat == 11 || c.toNat == 12 || c.toNat == 13

def plainOf (text : Text) : Text :=
  (text.map fun c => if c == '\t' then ' ' else c).filter (!isDropped ·)

/-- A style on a stretch, cut at the end of the text; nothing if no character is left. -/
def stretch? (length : Nat) (span : Span) (style : String) : Option (Nat × Nat × String) :=
  if span.start < length && 0 < span.length then
    some (span.start, min span.stop length, style)
  else none

def ofReading (r : Reading) : Highlight :=
  let plain := plainOf r.text
  let code := r.code.map fun entry => (entry.2, partStyle entry.1)
  let vars := r.vars.map (·, variableStyle)
  let comments := r.comments.map (·, commentStyle r.isDoc)
  ⟨plain, (code ++ vars ++ comments).filterMap fun entry =>
    stretch? plain.length entry.1 entry.2⟩

end Highlight
end Command
end AsmColumns
