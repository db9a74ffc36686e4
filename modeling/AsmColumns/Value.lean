import AsmColumns.Decimal.Integer
import AsmColumns.Decimal.Shortest
import AsmColumns.Text.Quoted

/-!
# Values of settings

What a host or a settings file may supply for an option: nothing, a truth value, a number, a text,
bytes, a list, or a table whose entries keep their order.  Options are checked after they are
supplied, so a value of any shape can stand for any of them, and is written out when it is refused.
-/

namespace AsmColumns

inductive Value where
  | null
  | bool (b : Bool)
  | int (n : Int)
  | float (x : Decimal.Double)
  | text (t : Text)
  | bytes (octets : List Nat)
  | list (items : List Value)
  | table (entries : List (Value × Value))
deriving Inhabited

namespace Value

/-- Why no value is read from a text: the text is malformed, or the reader gave up on it. -/
inductive ReadFault where
  | malformed
  | brokenOff
deriving DecidableEq, Repr

/-- The digits of an integer, with a sign if it is negative. -/
def writeInt (n : Int) : Text :=
  if n < 0 then '-' :: Nat.toDigits 10 n.natAbs else Nat.toDigits 10 n.natAbs

/-- Positional notation of `digits` with the point behind `before` of them. -/
def writePoint (digits : Text) (before : Int) : Text :=
  if before ≤ 0 then '0' :: '.' :: (List.replicate (-before).toNat '0' ++ digits)
  else if digits.length ≤ before then
    digits ++ List.replicate (before.toNat - digits.length) '0' ++ ['.', '0']
  else digits.take before.toNat ++ '.' :: digits.drop before.toNat

/-- A power of ten has a sign and at least two digits. -/
def writeExponent (exponent : Int) : Text :=
  let digits := Nat.toDigits 10 exponent.natAbs
  let sign := if exponent < 0 then '-' else '+'
  'e' :: sign :: (if digits.length < 2 then '0' :: digits else digits)

/-- The shortest decimal, positional from a ten-thousandth up to sixteen digits before the
point. -/
def writeDigits (d : Decimal.Digits) : Text :=
  let digits := Nat.toDigits 10 d.digits
  let leading := d.exponent + digits.length - 1
  if -4 ≤ leading && leading < 16 then writePoint digits (leading + 1)
  else
    match digits with
    | [] => []
    | [c] => c :: writeExponent leading
    | c :: rest => c :: '.' :: rest ++ writeExponent leading

def writeDouble : Decimal.Double → Text
  | .nan => "nan".toList
  | .infinite negative => (if negative then ['-'] else []) ++ "inf".toList
  | .finite negative mantissa exponent =>
      let body :=
        if mantissa == 0 then "0.0".toList
        else writeDigits (Decimal.Digits.shortest mantissa exponent)
      (if negative then ['-'] else []) ++ body

/-- The characters of bytes; one that is not plain is written by its number. -/
def writeOctet (quote : Char) (octet : Nat) : Text :=
  if octet < 128 then Text.escapeChar quote (Char.ofNat octet) else '\\' :: 'x' :: Text.hex 2 octet

def writeBytes (octets : List Nat) : Text :=
  let quote := Text.quoteOf (octets.map Char.ofNat)
  'b' :: quote :: octets.flatMap (writeOctet quote) ++ [quote]

/-- Writes the pieces with a comma and a space between them. -/
def writeJoined : List Text → Text
  | [] => []
  | [piece] => piece
  | piece :: rest => piece ++ ',' :: ' ' :: writeJoined rest

/-- The pieces of a list.  A list that serves as a key is fixed, and stands in parentheses with a
comma behind a lone piece. -/
def writeItems (isKey : Bool) (pieces : List Text) : Text :=
  if !isKey then '[' :: writeJoined pieces ++ [']']
  else if pieces.length == 1 then '(' :: writeJoined pieces ++ [',', ')']
  else '(' :: writeJoined pieces ++ [')']

mutual

/-- The written form of a value, which may serve as a key. -/
def writeAs (isKey : Bool) : Value → Text
  | .null => "None".toList
  | .bool b => if b then "True".toList else "False".toList
  | .int n => writeInt n
  | .float x => writeDouble x
  | .text t => Text.quoted t
  | .bytes octets => writeBytes octets
  | .list items => writeItems isKey (writeAll items)
  | .table entries => '{' :: writeJoined (writeEntries entries) ++ ['}']

def writeAll : List Value → List Text
  | [] => []
  | item :: rest => writeAs false item :: writeAll rest

def writeEntries : List (Value × Value) → List Text
  | [] => []
  | (key, value) :: rest =>
      (writeAs true key ++ ':' :: ' ' :: writeAs false value) :: writeEntries rest

end

/-- The written form of a value in messages. -/
def write (value : Value) : Text :=
  writeAs false value

/-- A text stands for itself where a value is used as a name. -/
def asName : Value → Text
  | .text t => t
  | value => writeAs true value

mutual

/-- Whether a value has a written form.  An integer of too many digits has none, and nor has what
holds one. -/
def isWritable : Value → Bool
  | .int n => Decimal.isWritable n
  | .list items => areWritable items
  | .table entries => areEntriesWritable entries
  | _ => true

def areWritable : List Value → Bool
  | [] => true
  | item :: rest => item.isWritable && areWritable rest

def areEntriesWritable : List (Value × Value) → Bool
  | [] => true
  | (key, value) :: rest => key.isWritable && value.isWritable && areEntriesWritable rest

end

/-- Whether a value counts as set where it is used as a flag. -/
def isSet : Value → Bool
  | .null => false
  | .bool b => b
  | .int n => n != 0
  | .float x => !x.isZero
  | .text t => !t.isEmpty
  | .bytes octets => !octets.isEmpty
  | .list items => !items.isEmpty
  | .table entries => !entries.isEmpty

/-- Why a value is no integer. -/
inductive NotInteger where
  | malformed
  | infinite
deriving DecidableEq, Repr

/-- The integer that a value stands for; fractions are dropped. -/
def toInteger : Value → Except NotInteger Int
  | .bool b => .ok (if b then 1 else 0)
  | .int n => .ok n
  | .float (.finite negative mantissa exponent) =>
      .ok (Decimal.Double.truncate negative mantissa exponent)
  | .float (.infinite _) => .error .infinite
  | .text t =>
      match Decimal.integer? t with
      | some n => .ok n
      | none => .error .malformed
  | .bytes octets =>
      match Decimal.plainInteger? (octets.map Char.ofNat) with
      | some n => .ok n
      | none => .error .malformed
  | _ => .error .malformed

/-- The items of a value that can be gone through one by one. -/
def items? : Value → Option (List Value)
  | .text t => some (t.map fun c => .text [c])
  | .bytes octets => some (octets.map fun octet : Nat => .int octet)
  | .list items => some items
  | .table entries => some (entries.map (·.1))
  | _ => none

/-! ## Keys -/

/-- The fraction that a number stands for. -/
def fraction? : Value → Option (Int × Nat)
  | .bool b => some (if b then 1 else 0, 1)
  | .int n => some (n, 1)
  | .float (.finite negative mantissa exponent) =>
      let (num, den) := Decimal.Double.fraction mantissa exponent
      some (if negative then -(num : Int) else num, den)
  | _ => none

/-- Whether two values are the same key of a table.  Numbers are compared by what they are worth,
whatever their form. -/
def sameKey (a b : Value) : Bool :=
  match fraction? a, fraction? b with
  | some (p, q), some (r, s) => p * s == r * q
  | _, _ =>
      match a, b with
      | .null, .null => true
      | .text s, .text t => s == t
      | .bytes s, .bytes t => s == t
      | .float (.infinite s), .float (.infinite t) => s == t
      | _, _ => false

/-- Puts an entry into a table; the entry of the same key keeps its place and gets the value. -/
def putEntry (key value : Value) : List (Value × Value) → List (Value × Value)
  | [] => [(key, value)]
  | (other, old) :: rest =>
      if sameKey other key then (other, value) :: rest
      else (other, old) :: putEntry key value rest

/-- The entries of a table, of which the last of each key counts. -/
def collapse (entries : List (Value × Value)) : List (Value × Value) :=
  entries.foldl (fun table entry => putEntry entry.1 entry.2 table) []

end Value
end AsmColumns
