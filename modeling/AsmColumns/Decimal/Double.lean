/-!
# Binary floating point numbers

Double precision numbers as exact values: a finite number is a sign, an integer below `2 ^ 53` and
a power of two.  Rounding a fraction to the nearest such number, with a tie going to the even
integer, is done in exact arithmetic on the natural numbers.
-/

namespace AsmColumns
namespace Decimal

inductive Double where
  | nan
  | infinite (negative : Bool)
  /-- The number `mantissa * 2 ^ exponent` with a sign. -/
  | finite (negative : Bool) (mantissa : Nat) (exponent : Int)
deriving DecidableEq, Repr, Inhabited

namespace Double

/-- Integers of finite numbers stay below this bound. -/
def mantissaBound : Nat := Nat.pow 2 53

/-- The least exponent, that of the numbers near zero. -/
def minExponent : Int := -1074

/-- The greatest exponent. -/
def maxExponent : Int := 971

/-- The quotient rounded to the nearest integer, a tie to the even one. -/
def divRound (num den : Nat) : Nat :=
  let quotient := num / den
  let double := 2 * (num % den)
  if double < den then quotient
  else if den < double then quotient + 1
  else if quotient % 2 == 0 then quotient
  else quotient + 1

/-- The fraction `num / den` divided by a power of two, as a fraction. -/
def scale (num den : Nat) (exponent : Int) : Nat × Nat :=
  if 0 ≤ exponent then (num, den * Nat.pow 2 exponent.toNat)
  else (num * Nat.pow 2 (-exponent).toNat, den)

/-- The exponent at which the integer part of a positive fraction has 53 bits, or one more or less
than that. -/
def exponentEstimate (num den : Nat) : Int :=
  (num.log2 : Int) - den.log2 - 52

/-- The exponent of the nearest number: the estimate, corrected so that the scaled fraction stays
below the bound on integers. -/
def exponentOf (num den : Nat) : Int :=
  let estimate := exponentEstimate num den - 1
  let scaled := scale num den estimate
  let exponent := if scaled.1 < mantissaBound * scaled.2 then estimate else estimate + 1
  max minExponent exponent

/-- The number nearest to the fraction `num / den`, where `den` is positive. -/
def ofFraction (negative : Bool) (num den : Nat) : Double :=
  if num == 0 then .finite negative 0 0
  else
    let exponent := exponentOf num den
    let scaled := scale num den exponent
    let rounded := divRound scaled.1 scaled.2
    let (mantissa, exponent) :=
      if rounded == mantissaBound then (rounded / 2, exponent + 1) else (rounded, exponent)
    if maxExponent < exponent then .infinite negative
    else .finite negative mantissa exponent

/-- The fraction that a mantissa and an exponent stand for. -/
def fraction (mantissa : Nat) (exponent : Int) : Nat × Nat :=
  if 0 ≤ exponent then (mantissa * Nat.pow 2 exponent.toNat, 1)
  else (mantissa, Nat.pow 2 (-exponent).toNat)

/-- A decimal with more digits before the point than this exceeds every number, and one with more
zeros behind the point lies below every number. -/
def decimalLimit : Int := 400

/-- The number nearest to `digits * 10 ^ exponent`, where `count` digits are written. -/
def ofDecimal (negative : Bool) (digits : Nat) (exponent : Int) (count : Nat) : Double :=
  if digits == 0 then .finite negative 0 0
  else if decimalLimit < exponent + count then .infinite negative
  else if exponent + count < -decimalLimit then .finite negative 0 0
  else if 0 ≤ exponent then ofFraction negative (digits * Nat.pow 10 exponent.toNat) 1
  else ofFraction negative digits (Nat.pow 10 (-exponent).toNat)

def isZero : Double → Bool
  | .finite _ mantissa _ => mantissa == 0
  | _ => false

/-- The integer part, the fraction being dropped. -/
def truncate (negative : Bool) (mantissa : Nat) (exponent : Int) : Int :=
  let (num, den) := fraction mantissa exponent
  if negative then -((num / den : Nat) : Int) else (num / den : Nat)

/-- The least integer that is not below the number. -/
def ceiling (negative : Bool) (mantissa : Nat) (exponent : Int) : Int :=
  let (num, den) := fraction mantissa exponent
  if negative then -((num / den : Nat) : Int) else ((num + den - 1) / den : Nat)

end Double
end Decimal
end AsmColumns
