import AsmColumns.Text.Basic

/-!
# Lines for display

A text is cut into the lines that a terminal shows at every character that ends a line there, not
only at newlines.  A carriage return and the line feed behind it end one line.  The text behind the
last end is a line only if it is not empty.
-/

namespace AsmColumns
namespace Text

/-- Characters that end a line on display. -/
def endsLine (c : Char) : Bool :=
  let n := c.toNat
  (10 ≤ n && n ≤ 13) || (28 ≤ n && n ≤ 30) || n == 0x85 || n == 0x2028 || n == 0x2029

/-- The lines of a text, the first of which starts with the characters already read. -/
def shownFrom (read : Text) : Text → List Text
  | [] => if read.isEmpty then [] else [read.reverse]
  | '\r' :: '\n' :: rest => read.reverse :: shownFrom [] rest
  | c :: rest =>
      if endsLine c then read.reverse :: shownFrom [] rest else shownFrom (c :: read) rest

def shownLines (text : Text) : List Text :=
  shownFrom [] text

end Text
end AsmColumns
