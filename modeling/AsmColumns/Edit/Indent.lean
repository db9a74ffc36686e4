import AsmColumns.Edit.Action

/-!
# Indenting a line

The actions that replace the blanks at the start of a line by spaces up to a column.  There are
none if the line stands there already on spaces alone.
-/

namespace AsmColumns
namespace Edit

/-- The number of spaces and tabs that a line starts with. -/
def currentIndent (line : Text) : Nat :=
  (line.takeWhile Text.isPad).length

def indentTo (line : Text) (column : Int) : List Action :=
  let lead := line.takeWhile Text.isPad
  if column = lead.length ∧ '\t' ∉ lead then []
  else [.moveToColumn 0, .deleteRange 0 lead.length, .moveToColumn column]

end Edit
end AsmColumns
