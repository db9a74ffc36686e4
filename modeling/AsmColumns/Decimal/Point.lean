import AsmColumns.Decimal.Double
import AsmColumns.Text.Basic

/-!
# Decimals with a point

The number that a decimal with a point or a power of ten spells, and the names of the values that
are no finite numbers.
-/

namespace AsmColumns
namespace Decimal

/-- The value of a run of digits. -/
def valueOf (digits : Text) : Nat :=
  digits.foldl (fun value c => value * 10 + (c.toNat - 48)) 0

/-- The power of ten behind the mark `e`, which is no power if nothing follows it. -/
def power? : Text → Option Int
  | [] => some 0
  | mark :: rest =>
      if mark == 'e' || mark == 'E' then
        let (negative, digits) :=
          match rest with
          | '-' :: digits => (true, digits)
          | '+' :: digits => (false, digits)
          | digits => (false, digits)
        if digits.isEmpty || !digits.all Char.isDigit then none
        else if negative then some (-(valueOf digits : Int))
        else some (valueOf digits)
      else none

/-- A decimal without a sign. -/
def unsigned? (negative : Bool) (text : Text) : Option Double :=
  let whole := text.takeWhile Char.isDigit
  let rest := text.dropWhile Char.isDigit
  let (part, rest) :=
    match rest with
    | '.' :: rest => (rest.takeWhile Char.isDigit, rest.dropWhile Char.isDigit)
    | rest => ([], rest)
  if whole.isEmpty && part.isEmpty then none
  else
    (power? rest).map fun power =>
      let digits := whole ++ part
      Double.ofDecimal negative (valueOf digits) (power - part.length) digits.length

/-- The number that a text spells. -/
def number? (text : Text) : Option Double :=
  let (negative, body) :=
    match text with
    | '-' :: body => (true, body)
    | '+' :: body => (false, body)
    | body => (false, body)
  let name := body.map Char.toLower
  if name == "inf".toList || name == "infinity".toList then some (.infinite negative)
  else if name == "nan".toList then some .nan
  else unsigned? negative body

end Decimal
end AsmColumns
