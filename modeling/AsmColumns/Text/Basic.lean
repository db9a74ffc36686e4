/-!
# Text

A text is the list of its characters, so that every offset, column and length counts characters.
Blank characters are the ones that separate words.  The operations below are those of a column
editor: trimming, padding to a column, looking for a delimiter, cutting out a stretch.
-/

namespace AsmColumns

abbrev Text := List Char

/-- The hash of a character, and so of a text, is that of its code point. -/
instance Text.hashableChar : Hashable Char := instHashableChar

namespace Text

/-- Blank characters: the controls from tab to carriage return, the four information separators,
the space, the next-line control and the separators of the other scripts. -/
def isBlank (c : Char) : Bool :=
  let n := c.toNat
  (9 ≤ n && n ≤ 13) || (28 ≤ n && n ≤ 32) || n == 0x85 || n == 0xA0 || n == 0x1680 ||
    (0x2000 ≤ n && n ≤ 0x200A) || n == 0x2028 || n == 0x2029 || n == 0x202F || n == 0x205F ||
    n == 0x3000

/-- The two characters that an editor uses to indent. -/
def isPad (c : Char) : Bool :=
  c == ' ' || c == '\t'

def allBlank (text : Text) : Bool :=
  text.all isBlank

/-- The text without its longest tail of characters in the class. -/
def dropTail (inClass : Char → Bool) (text : Text) : Text :=
  (text.reverse.dropWhile inClass).reverse

/-- The longest tail of characters in the class. -/
def takeTail (inClass : Char → Bool) (text : Text) : Text :=
  (text.reverse.takeWhile inClass).reverse

def trimLeft (text : Text) : Text :=
  text.dropWhile isBlank

def trimRight (text : Text) : Text :=
  dropTail isBlank text

def trim (text : Text) : Text :=
  trimRight (trimLeft text)

/-- A run of spaces; a column left of the margin asks for none. -/
def spaces (count : Int) : Text :=
  List.replicate count.toNat ' '

/-- The longest run of spaces that can be asked for. -/
def maxRun : Int := Int.pow 2 63 - 1

/-- Pads with spaces so that the next character stands at the column, if it is not passed yet. -/
def padRight (column : Int) (text : Text) : Text :=
  text ++ spaces (column - text.length)

/-- The characters from `start` to `stop`, as far as the text has them. -/
def slice (start stop : Nat) (text : Text) : Text :=
  (text.drop start).take (stop - start)

/-- The offset of the first occurrence of `piece`. -/
def offsetOf? (piece : Text) : Text → Option Nat
  | [] => if piece.isEmpty then some 0 else none
  | c :: rest =>
      if piece.isPrefixOf (c :: rest) then some 0
      else (offsetOf? piece rest).map (· + 1)

/-- Whether `piece` occurs in the text. -/
def occursIn (piece text : Text) : Bool :=
  (offsetOf? piece text).isSome

/-- Every character in one of the stretches that `covered` describes is replaced by a space. -/
def blankOut (covered : Nat → Bool) (text : Text) : Text :=
  text.mapIdx fun i c => if covered i then ' ' else c

end Text
end AsmColumns
