import AsmColumns.Diff.Matching

/-!
# Unified differences

How one text turns into another: the lines that stay, go and come, in hunks with three lines
around every change.  Each hunk is headed by the line numbers that it covers in both texts, and the
whole by the names of the texts.  Two equal texts have no hunks and no head.
-/

namespace AsmColumns
namespace Diff

/-- A stretch of the two texts that is equal in both, or is replaced. -/
structure Change where
  equal : Bool
  oldStart : Nat
  oldStop : Nat
  newStart : Nat
  newStop : Nat
deriving DecidableEq, Repr

/-- The stretches between and at the blocks, from the given offsets on. -/
def changesFrom (i j oldSize newSize : Nat) : List Block → List Change
  | [] => if i < oldSize ∨ j < newSize then [⟨false, i, oldSize, j, newSize⟩] else []
  | block :: rest =>
      let same : Change :=
        ⟨true, block.old, block.old + block.size, block.new, block.new + block.size⟩
      let later := same :: changesFrom same.oldStop same.newStop oldSize newSize rest
      if i < block.old ∨ j < block.new then ⟨false, i, block.old, j, block.new⟩ :: later
      else later

/-- The number of equal lines shown around a change. -/
def context : Nat := 3

/-- The first lines of an equal stretch. -/
def Change.opening (change : Change) : Change :=
  { change with
    oldStop := min change.oldStop (change.oldStart + context)
    newStop := min change.newStop (change.newStart + context) }

/-- The last lines of an equal stretch. -/
def Change.ending (change : Change) : Change :=
  { change with
    oldStart := max change.oldStart (change.oldStop - context)
    newStart := max change.newStart (change.newStop - context) }

/-- An equal stretch at the start of the texts shows its last lines only. -/
def trimFirst : List Change → List Change
  | change :: rest => (if change.equal then change.ending else change) :: rest
  | [] => []

/-- An equal stretch at the end of the texts shows its first lines only. -/
def trimLast : List Change → List Change
  | [] => []
  | [change] => [if change.equal then change.opening else change]
  | change :: rest => change :: trimLast rest

/-- Cuts the stretches into hunks, in the middle of each long equal one. -/
def hunksFrom (hunk : List Change) : List Change → List (List Change)
  | [] => if hunk.isEmpty then [] else [hunk.reverse]
  | change :: rest =>
      if change.equal && 2 * context < change.oldStop - change.oldStart then
        (change.opening :: hunk).reverse :: hunksFrom [change.ending] rest
      else hunksFrom (change :: hunk) rest

/-- A last hunk with nothing but equal lines is left out. -/
def isIdle : List Change → Bool
  | [change] => change.equal
  | _ => false

def dropIdleLast : List (List Change) → List (List Change)
  | [] => []
  | [hunk] => if isIdle hunk then [] else [hunk]
  | hunk :: rest => hunk :: dropIdleLast rest

/-- The line numbers of a stretch, from one on. -/
def range (start stop : Nat) : String :=
  let length := stop - start
  if length = 1 then toString (start + 1)
  else if length = 0 then s!"{start},0"
  else s!"{start + 1},{length}"

def markLines (mark : Char) (lines : Array Text) (start stop : Nat) : List Text :=
  (lines.extract start stop).toList.map (mark :: ·)

def Change.render (pair : Pair) (change : Change) : List Text :=
  if change.equal then markLines ' ' pair.old change.oldStart change.oldStop
  else
    markLines '-' pair.old change.oldStart change.oldStop ++
      markLines '+' pair.new change.newStart change.newStop

def renderHunk (pair : Pair) (hunk : List Change) : List Text :=
  match hunk.head?, hunk.getLast? with
  | some first, some last =>
      let old := range first.oldStart last.oldStop
      let new := range first.newStart last.newStop
      s!"@@ -{old} +{new} @@".toList :: hunk.flatMap (Change.render pair)
  | _, _ => []

/-- The hunks of the difference of two texts. -/
def hunks (pair : Pair) : List (List Change) :=
  let changes := changesFrom 0 0 pair.old.size pair.new.size pair.blocks
  dropIdleLast (hunksFrom [] (trimLast (trimFirst changes)))

/-- The difference of two texts under the given names. -/
def unified (oldName newName : Text) (old new : List Text) : List Text :=
  let pair := Pair.ofLines old new
  match hunks pair with
  | [] => []
  | found =>
      ("--- ".toList ++ oldName) :: ("+++ ".toList ++ newName) ::
        found.flatMap (renderHunk pair)

end Diff
end AsmColumns
