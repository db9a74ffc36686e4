import AsmColumns.Decimal.Integer
import AsmColumns.Text.Basic

/-!
# Spans

A span is a half-open stretch of the offsets of one line.  It is kept as a start and a length, so
that every value of the type is a stretch; bounds that run backwards or start before the line are
refused where they are turned into a span.
-/

namespace AsmColumns

structure Span where
  start : Nat
  length : Nat
deriving DecidableEq, Repr, Hashable, Inhabited

/-- Bounds that enclose no stretch of a line. -/
structure Span.Invalid where
  start : Int
  stop : Int
deriving DecidableEq, Repr

namespace Span

/-- The first offset after the span. -/
def stop (span : Span) : Nat :=
  span.start + span.length

/-- The span from `start` up to `stop`. -/
def ofBounds (start stop : Int) : Except Invalid Span :=
  if start < 0 ∨ stop < start then .error ⟨start, stop⟩
  else .ok ⟨start.toNat, (stop - start).toNat⟩

def contains (span : Span) (offset : Nat) : Bool :=
  span.start ≤ offset && offset < span.stop

/-- Membership of an offset that may lie left of the line. -/
def containsAt (span : Span) (offset : Int) : Bool :=
  0 ≤ offset && span.contains offset.toNat

/-- The characters of `text` inside the span. -/
def of (span : Span) (text : Text) : Text :=
  text.slice span.start span.stop

/-- Whether one of the spans covers the offset. -/
def covers (spans : List Span) (offset : Nat) : Bool :=
  spans.any (·.contains offset)

/-- The message that quotes the bounds, if both can be written. -/
def Invalid.message (bounds : Invalid) : Except Decimal.Unwritable String :=
  if Decimal.isWritable bounds.start && Decimal.isWritable bounds.stop then
    .ok s!"Invalid span [{bounds.start}, {bounds.stop})"
  else .error {}

end Span
end AsmColumns
