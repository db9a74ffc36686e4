import AsmColumns.Text.Basic

/-!
# A cursor in a settings file

The text that is still to be read, with the line and column at which it starts.  Reading never
goes back, so a cursor is all that a scanner has to carry along.
-/

namespace AsmColumns
namespace Yaml

structure Cursor where
  rest : Text
  index : Nat := 0
  line : Nat := 0
  column : Nat := 0
deriving Repr

/-- Characters that end a line. -/
def isBreak (c : Char) : Bool :=
  c == '\n' || c == '\r' || c.toNat == 0x85 || c.toNat == 0x2028 || c.toNat == 0x2029

/-- Whether a token may end before the head of the text: at its end, a blank or a line break. -/
def atGap : Text → Bool
  | [] => true
  | c :: _ => c == ' ' || c == '\t' || c == '\n' || c == '\r' || c.toNat == 0x85

namespace Cursor

/-- Passes over one character.  A byte order mark takes no column. -/
def step (cursor : Cursor) : Cursor :=
  match cursor.rest with
  | [] => cursor
  | c :: rest =>
      if isBreak c then ⟨rest, cursor.index + 1, cursor.line + 1, 0⟩
      else if c.toNat == 0xFEFF then { cursor with rest, index := cursor.index + 1 }
      else ⟨rest, cursor.index + 1, cursor.line, cursor.column + 1⟩

/-- Passes over a number of characters. -/
def skip (cursor : Cursor) : (count : Nat) → Cursor
  | 0 => cursor
  | count + 1 => cursor.step.skip count

/-- Passes over the longest run of characters in a class. -/
def skipWhile (cursor : Cursor) (inClass : Char → Bool) : Cursor :=
  cursor.skip (cursor.rest.takeWhile inClass).length

/-- Whether a mark of three characters stands here on its own. -/
def atMark (cursor : Cursor) (mark : Text) : Bool :=
  mark.isPrefixOf cursor.rest && atGap (cursor.rest.drop mark.length)

/-- Whether one of the two marks that part documents stands at the cursor. -/
def atDocumentMark (cursor : Cursor) : Bool :=
  cursor.atMark ['-', '-', '-'] || cursor.atMark ['.', '.', '.']

/-- What a line break stands for in a text: itself for the two separators of lines and of
paragraphs, and otherwise a line feed. -/
def breakText (c : Char) : Char :=
  if c.toNat == 0x2028 || c.toNat == 0x2029 then c else '\n'

end Cursor
end Yaml
end AsmColumns
