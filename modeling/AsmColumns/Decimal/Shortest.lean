import AsmColumns.Decimal.Double

/-!
# Shortest decimals

The decimal with the fewest digits that reads back as a given number.  For one digit, two digits
and so on, the two decimals of that many digits next to the number are tried; the first that read
back win, the nearer of two.  Seventeen digits are always enough.
-/

namespace AsmColumns
namespace Decimal

/-- The decimal `digits * 10 ^ exponent`. -/
structure Digits where
  digits : Nat
  exponent : Int
deriving DecidableEq, Repr

namespace Digits

/-- The number of decimal digits of a natural number. -/
def width (n : Nat) : Nat :=
  (Nat.toDigits 10 n).length

/-- The decimal without zeros at its end; `fuel` bounds their number. -/
def strip (d : Digits) : (fuel : Nat) → Digits
  | 0 => d
  | fuel + 1 =>
      if d.digits != 0 && d.digits % 10 == 0 then
        strip ⟨d.digits / 10, d.exponent + 1⟩ fuel
      else d

/-- The fraction divided by a power of ten. -/
def scaleTen (num den : Nat) (exponent : Int) : Nat × Nat :=
  if 0 ≤ exponent then (num, den * Nat.pow 10 exponent.toNat)
  else (num * Nat.pow 10 (-exponent).toNat, den)

/-- The power of ten of the leading digit of a positive fraction. -/
def leading (num den : Nat) : Int :=
  let estimate := (width num : Int) - width den
  let scaled := scaleTen num den estimate
  if scaled.1 < scaled.2 then estimate - 1 else estimate

def readsBack (value : Double) (d : Digits) : Bool :=
  Double.ofDecimal false d.digits d.exponent (width d.digits) == value

/-- The decimal of `count` digits nearest to the fraction among those that read back. -/
def ofCount? (value : Double) (num den count : Nat) : Option Digits :=
  let exponent := leading num den - count + 1
  let scaled := scaleTen num den exponent
  let low : Digits := ⟨scaled.1 / scaled.2, exponent⟩
  let high : Digits := ⟨scaled.1 / scaled.2 + 1, exponent⟩
  let nearer := Double.divRound scaled.1 scaled.2
  let (first, second) := if nearer == low.digits then (low, high) else (high, low)
  if readsBack value first then some first
  else if readsBack value second then some second
  else none

/-- The shortest decimal of a positive number. -/
def shortest (mantissa : Nat) (exponent : Int) : Digits :=
  let (num, den) := Double.fraction mantissa exponent
  let value := Double.finite false mantissa exponent
  let found := (List.range 17).findSome? fun n => ofCount? value num den (n + 1)
  (found.getD ⟨0, 0⟩).strip 20

end Digits
end Decimal
end AsmColumns
