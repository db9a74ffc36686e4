import AsmColumns.Comment.Convention
import AsmColumns.Line.Reading
import AsmColumns.TabStops
import AsmColumns.Value

/-!
# The column of a line

Labels, directives and documentation stand at the margin, a lone comment in the comment column,
and everything else at the first tab stop.  A page holds what the decision depends on.  A part of
it may be missing or malformed; the lines that would need that part then stay at the margin, the
one column that is always safe.
-/

namespace AsmColumns
namespace Layout

open Comment (Convention)
open Line (Reading)

structure Page where
  convention : Option Convention := some default
  stops : Option TabStops := some {}
  commentColumn : Value := .int 32
deriving Inhabited

/-- A page with every part in place. -/
def Page.whole (conv : Convention) (stops : TabStops) (commentColumn : Int) : Page :=
  ⟨some conv, some stops, .int commentColumn⟩

/-- The first tab stop of the page. -/
def Page.firstStop (page : Page) : Int :=
  match page.stops with
  | some stops => stops.first
  | none => 0

/-- The comment column of the page as an integer. -/
def Page.commentStop (page : Page) : Int :=
  match page.commentColumn.toInteger with
  | .ok column => column
  | .error _ => 0

/-- The column that a line belongs at. -/
def Page.column (page : Page) (r : Reading) : Int :=
  if r.degraded then 0
  else
    match r.kind with
    | .label | .directive => 0
    | .comment =>
        if r.isDoc then 0
        else
          match page.convention with
          | none => 0
          | some conv =>
              if conv.repeatable && r.depth == 1 then page.commentStop else page.firstStop
    | _ => page.firstStop

/-- The column of a line that may have no reading. -/
def Page.columnOf (page : Page) : Option Reading → Int
  | none => 0
  | some r => page.column r

end Layout
end AsmColumns
