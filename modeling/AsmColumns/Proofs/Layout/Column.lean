import AsmColumns.Layout.Column
import AsmColumns.Settings.Basic

/-!
# Tab stops and the column of a line

With a positive width there is always a stop behind a column, and it lies strictly behind it.  On a
page with every part in place, a line belongs at the margin, in the comment column or at the first
tab stop, which is a configured stop or the width.
-/

namespace AsmColumns
namespace TabStops

theorem lt_nextMultiple {tabs : TabStops} (hwidth : 1 ≤ tabs.width) (column : Int) :
    column < tabs.nextMultiple column := by
  have hdiv := Int.mul_fdiv_add_fmod column tabs.width
  have hmod := Int.fmod_lt_of_pos column (show 0 < tabs.width by omega)
  rw [nextMultiple, Int.add_mul, Int.one_mul, Int.mul_comm]
  omega

theorem lt_nextStop {tabs : TabStops} (hwidth : 1 ≤ tabs.width) (column : Int) :
    column < tabs.nextStop column := by
  rw [nextStop]
  split
  · next stop hstop =>
    simpa using List.find?_some hstop
  · exact lt_nextMultiple hwidth column

theorem first_pos {tabs : TabStops} (hwidth : 1 ≤ tabs.width) : 0 < tabs.first :=
  lt_nextStop hwidth 0

theorem first_mem_or_eq_width (tabs : TabStops) :
    tabs.first ∈ tabs.stops ∨ tabs.first = tabs.width := by
  rw [first, nextStop]
  split
  · next stop hstop => exact .inl (List.mem_of_find?_eq_some hstop)
  · right
    rw [nextMultiple, Int.zero_fdiv, Int.zero_add, Int.one_mul]

end TabStops

namespace Layout

open Comment (Convention)
open Line (Reading)

section Whole

variable (conv : Convention) (stops : TabStops) (commentColumn : Int)

theorem column_whole (r : Reading) :
    (Page.whole conv stops commentColumn).column r =
      if r.degraded then 0
      else
        match r.kind with
        | .label | .directive => 0
        | .comment =>
            if r.isDoc then 0
            else if conv.repeatable && r.depth == 1 then commentColumn else stops.first
        | _ => stops.first := rfl

/-- The columns at which a line can belong. -/
theorem column_whole_cases (r : Reading) :
    (Page.whole conv stops commentColumn).column r = 0 ∨
      (Page.whole conv stops commentColumn).column r = commentColumn ∨
      (Page.whole conv stops commentColumn).column r = stops.first := by
  rw [column_whole]
  split
  · exact .inl rfl
  · split
    · exact .inl rfl
    · exact .inl rfl
    · split
      · exact .inl rfl
      · split
        · exact .inr (.inl rfl)
        · exact .inr (.inr rfl)
    · exact .inr (.inr rfl)

theorem column_whole_nonneg (hwidth : 1 ≤ stops.width) (hcomment : 0 ≤ commentColumn)
    (r : Reading) : 0 ≤ (Page.whole conv stops commentColumn).column r := by
  have hfirst : 0 < stops.first := TabStops.first_pos hwidth
  rcases column_whole_cases conv stops commentColumn r with h | h | h <;> omega

end Whole

end Layout
end AsmColumns
