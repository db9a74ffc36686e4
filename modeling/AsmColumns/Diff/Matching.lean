import AsmColumns.Text.Basic
import Std.Data.HashMap

/-!
# Matching blocks of two texts

The lines that two texts have in common, as blocks of equal lines.  The longest block comes first,
the earliest of several in the old text and then in the new one, and the lines before it and behind
it are matched in the same way.  In a long text a line that occurs too often starts no block; it
can only extend one.
-/

namespace AsmColumns
namespace Diff

/-- A run of `size` equal lines, from `old` in the one text and from `new` in the other. -/
structure Block where
  old : Nat
  new : Nat
  size : Nat
deriving DecidableEq, Repr, Inhabited

/-- A text of this many lines is long. -/
def longText : Nat := 200

/-- How often a line of a long text may occur and still start a block. -/
def maxOccurrences (lines : Nat) : Nat :=
  lines / 100 + 1

/-- Two texts, with the offsets of each line in the new one. -/
structure Pair where
  old : Array Text
  new : Array Text
  places : Std.HashMap Text (List Nat)

/-- The offsets of every line, in order. -/
def placesOf (lines : Array Text) : Std.HashMap Text (List Nat) :=
  let indexed := lines.toList.zip (List.range lines.size)
  indexed.foldr (fun entry map => map.insert entry.1 (entry.2 :: map.getD entry.1 [])) ∅

/-- The offsets of the lines that may start a block. -/
def startsOf (lines : Array Text) : Std.HashMap Text (List Nat) :=
  if lines.size < longText then placesOf lines
  else (placesOf lines).filter fun _ offsets => offsets.length ≤ maxOccurrences lines.size

def Pair.ofLines (old new : List Text) : Pair :=
  ⟨old.toArray, new.toArray, startsOf new.toArray⟩

/-- A part of each text. -/
structure Window where
  oldStart : Nat
  oldStop : Nat
  newStart : Nat
  newStop : Nat
deriving Repr

/-- The longest block found so far, and the lengths of the blocks that end at the last line of the
old text, by the line of the new text at which they end. -/
structure Search where
  best : Block
  endings : Std.HashMap Nat Nat := ∅

/-- Goes on to one line of the old text. -/
def Pair.searchLine (pair : Pair) (window : Window) (search : Search) (i : Nat) : Search :=
  let places := pair.places.getD (pair.old[i]?.getD []) []
  let inside := places.filter fun j => window.newStart ≤ j && j < window.newStop
  inside.foldl (fun next j =>
    let size := (if j = 0 then 0 else search.endings.getD (j - 1) 0) + 1
    let best := if next.best.size < size then ⟨i + 1 - size, j + 1 - size, size⟩ else next.best
    ⟨best, next.endings.insert j size⟩) ⟨search.best, ∅⟩

/-- Whether the lines at two offsets are equal. -/
def Pair.agree (pair : Pair) (i j : Nat) : Bool :=
  pair.old[i]? == pair.new[j]?

/-- The number of equal lines before a block that it can be extended by. -/
def Pair.before (pair : Pair) (window : Window) (block : Block) : (fuel : Nat) → Nat
  | 0 => 0
  | fuel + 1 =>
      if window.oldStart < block.old && window.newStart < block.new &&
          pair.agree (block.old - 1) (block.new - 1) then
        pair.before window ⟨block.old - 1, block.new - 1, block.size + 1⟩ fuel + 1
      else 0

/-- The number of equal lines behind a block that it can be extended by. -/
def Pair.behind (pair : Pair) (window : Window) (block : Block) : (fuel : Nat) → Nat
  | 0 => 0
  | fuel + 1 =>
      if block.old + block.size < window.oldStop && block.new + block.size < window.newStop &&
          pair.agree (block.old + block.size) (block.new + block.size) then
        pair.behind window ⟨block.old, block.new, block.size + 1⟩ fuel + 1
      else 0

/-- The longest block inside a window. -/
def Pair.longest (pair : Pair) (window : Window) : Block :=
  let start : Search := ⟨⟨window.oldStart, window.newStart, 0⟩, ∅⟩
  let lines := List.range' window.oldStart (window.oldStop - window.oldStart)
  let best := (lines.foldl (pair.searchLine window) start).best
  let fuel := pair.old.size
  let before := pair.before window best fuel
  let block : Block := ⟨best.old - before, best.new - before, best.size + before⟩
  { block with size := block.size + pair.behind window block fuel }

/-- The blocks inside a window, in order. -/
def Pair.blocksIn (pair : Pair) (window : Window) : (fuel : Nat) → List Block
  | 0 => []
  | fuel + 1 =>
      let block := pair.longest window
      if block.size = 0 then []
      else
        let left : Window := { window with oldStop := block.old, newStop := block.new }
        let right : Window :=
          { window with oldStart := block.old + block.size, newStart := block.new + block.size }
        let before :=
          if left.oldStart < left.oldStop && left.newStart < left.newStop then
            pair.blocksIn left fuel
          else []
        let behind :=
          if right.oldStart < right.oldStop && right.newStart < right.newStop then
            pair.blocksIn right fuel
          else []
        before ++ block :: behind

/-- Joins a block with those that follow it without a gap. -/
def joinFrom (block : Block) : List Block → List Block
  | [] => [block]
  | next :: rest =>
      if block.old + block.size = next.old ∧ block.new + block.size = next.new then
        joinFrom ⟨block.old, block.new, block.size + next.size⟩ rest
      else block :: joinFrom next rest

def joinBlocks : List Block → List Block
  | [] => []
  | block :: rest => joinFrom block rest

/-- The blocks of equal lines of two texts. -/
def Pair.blocks (pair : Pair) : List Block :=
  let window : Window := ⟨0, pair.old.size, 0, pair.new.size⟩
  joinBlocks (pair.blocksIn window (pair.old.size + 1))

end Diff
end AsmColumns
