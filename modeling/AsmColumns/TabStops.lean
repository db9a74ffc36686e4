/-!
# Tab stops

The columns that a tabulator moves to.  The configured stops come first; past the last of them, or
when there are none, the stops are the multiples of the width.  Columns are integers, because a
caller may ask for a column left of the margin.
-/

namespace AsmColumns

structure TabStops where
  stops : List Int := []
  width : Int := 8
deriving DecidableEq, Repr, Inhabited

namespace TabStops

/-- The next multiple of the width. -/
def nextMultiple (tabs : TabStops) (column : Int) : Int :=
  (column.fdiv tabs.width + 1) * tabs.width

/-- The first stop behind the column. -/
def nextStop (tabs : TabStops) (column : Int) : Int :=
  match tabs.stops.find? (column < ·) with
  | some stop => stop
  | none => tabs.nextMultiple column

/-- The first stop behind the column; there is none if it would have to be a multiple of zero. -/
def nextStop? (tabs : TabStops) (column : Int) : Option Int :=
  if tabs.width == 0 && !tabs.stops.any (column < ·) then none
  else some (tabs.nextStop column)

/-- The first stop of a line. -/
def first (tabs : TabStops) : Int :=
  tabs.nextStop 0

end TabStops
end AsmColumns
