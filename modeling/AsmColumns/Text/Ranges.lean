/-!
# Runs of code points

Classes of characters beyond the first 128 are given by tables of closed runs of code points.
-/

namespace AsmColumns
namespace Text

/-- Whether a code point lies in one of the closed runs of a table. -/
def inRanges (ranges : List (Nat × Nat)) (n : Nat) : Bool :=
  ranges.any fun run => run.1 ≤ n && n ≤ run.2

end Text
end AsmColumns
