import AsmColumns.Text.DecimalDigit

/-!
# Integers in text

The integer that a text spells: blanks around it, a sign, and decimal digits of any script, with
single underscores allowed between them.  In a text of plain characters only the controls from tab
to carriage return and the space count as blanks.

An integer of too many digits is neither read nor written.  What is to be noted with such an integer
in it is given up.
-/

namespace AsmColumns
namespace Decimal

/-- Integers of more digits than this are neither read nor written. -/
def maxDigits : Nat := 4300

/-- Whether an integer has a written form. -/
def isWritable (n : Int) : Bool :=
  (Nat.toDigits 10 n.natAbs).length ≤ maxDigits

/-- An integer without a written form was to be written. -/
structure Unwritable where
deriving DecidableEq, Repr

/-- An answer that is given once a note with an integer in it has been made. -/
def noting {α : Type} (n : Int) (answer : α) : Except Unwritable α :=
  if isWritable n then .ok answer else .error {}

/-- The blanks around an integer in a text of plain characters. -/
def isPlainBlank (c : Char) : Bool :=
  (9 ≤ c.toNat && c.toNat ≤ 13) || c == ' '

/-- The plain character that stands for a character in an integer. -/
def plainChar (c : Char) : Char :=
  if c.toNat < 127 then c
  else if Text.isBlank c then ' '
  else
    match Text.digitValue? c with
    | some value => Char.ofNat (48 + value)
    | none => '?'

/-- Digits with single underscores between them; `prior` is the value of those already read. -/
def digitsFrom? (prior : Nat) : Text → Option Nat
  | [] => some prior
  | c :: rest =>
      if c.isDigit then digitsFrom? (prior * 10 + (c.toNat - 48)) rest
      else if c == '_' then
        match rest with
        | d :: rest' =>
            if d.isDigit then digitsFrom? (prior * 10 + (d.toNat - 48)) rest' else none
        | [] => none
      else none

/-- A run of digits that starts with one. -/
def natural? (text : Text) : Option Nat :=
  match text with
  | [] => none
  | c :: rest =>
      if c.isDigit && (text.filter Char.isDigit).length ≤ maxDigits then
        digitsFrom? (c.toNat - 48) rest
      else none

/-- An integer in plain characters. -/
def plainInteger? (text : Text) : Option Int :=
  let body := Text.dropTail isPlainBlank (text.dropWhile isPlainBlank)
  match body with
  | '-' :: rest => (natural? rest).map fun n => -(n : Int)
  | '+' :: rest => (natural? rest).map Int.ofNat
  | rest => (natural? rest).map Int.ofNat

/-- The integer that a text spells. -/
def integer? (text : Text) : Option Int :=
  plainInteger? (text.map plainChar)

end Decimal
end AsmColumns
