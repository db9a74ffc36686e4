import AsmColumns.Text.Basic
import AsmColumns.Text.Printable

/-!
# Quoted text

The written form of a text in messages.  It stands in single quotes, unless it holds a single
quote and no double quote.  Backslashes and the chosen quote are escaped, and so are all
characters that cannot be printed: tab, line feed and carriage return by a letter, the others by
their code points in two, four or eight hexadecimal digits.
-/

namespace AsmColumns
namespace Text

/-- A number in hexadecimal digits, with zeros in front up to the width. -/
def hex (width n : Nat) : Text :=
  let digits := Nat.toDigits 16 n
  List.replicate (width - digits.length) '0' ++ digits

/-- The quote that a text is written in. -/
def quoteOf (text : Text) : Char :=
  if text.contains '\'' && !text.contains '"' then '"' else '\''

def escapeChar (quote c : Char) : Text :=
  if c == quote || c == '\\' then ['\\', c]
  else if c == '\t' then ['\\', 't']
  else if c == '\n' then ['\\', 'n']
  else if c == '\r' then ['\\', 'r']
  else if isPrintable c then [c]
  else if c.toNat < 0x100 then '\\' :: 'x' :: hex 2 c.toNat
  else if c.toNat < 0x10000 then '\\' :: 'u' :: hex 4 c.toNat
  else '\\' :: 'U' :: hex 8 c.toNat

/-- The text in quotes. -/
def quoted (text : Text) : Text :=
  let quote := quoteOf text
  quote :: text.flatMap (escapeChar quote) ++ [quote]

end Text
end AsmColumns
