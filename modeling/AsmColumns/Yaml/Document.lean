import AsmColumns.Decimal.Point
import AsmColumns.Value
import AsmColumns.Yaml.Token

/-!
# The document of a settings file

The value that a file spells.  Nodes are read from the tokens from the left.  A plain scalar may be
a truth value, a number or nothing at all by its spelling; a quoted one is always text.  A mapping
with the same key twice, and a second document, make the file malformed.

Reading a node takes a fuel argument, which bounds the depth of recursion; every level takes at
least one token, so the number of tokens is enough.
-/

namespace AsmColumns
namespace Yaml

/-! ## Plain scalars -/

def isUnderscored (isDigit : Char → Bool) (text : Text) : Bool :=
  !text.isEmpty && text.all fun c => isDigit c || c == '_'

def isOctal (c : Char) : Bool := '0' ≤ c && c ≤ '7'

def isBinary (c : Char) : Bool := c == '0' || c == '1'

/-- A sign, and what follows it. -/
def signed : Text → Bool × Text
  | '-' :: rest => (true, rest)
  | '+' :: rest => (false, rest)
  | rest => (false, rest)

/-- The number that digits of a base spell; underscores are passed over. -/
def inBase? (base : Nat) (digits : Text) : Option Nat :=
  let digits := digits.filter (· != '_')
  if digits.isEmpty then none
  else
    digits.foldlM (fun value c => (hexDigit? c).map (value * base + ·)) 0

/-- An integer: decimal, or behind its mark binary, octal or hexadecimal. -/
def plainInt? (text : Text) : Option Int :=
  let (negative, body) := signed text
  let magnitude :=
    match body with
    | '0' :: 'b' :: digits => if isUnderscored isBinary digits then inBase? 2 digits else none
    | '0' :: 'o' :: digits => if isUnderscored isOctal digits then inBase? 8 digits else none
    | '0' :: 'x' :: digits =>
        if isUnderscored (hexDigit? · |>.isSome) digits then inBase? 16 digits else none
    | digits => if isUnderscored Char.isDigit digits then inBase? 10 digits else none
  if text.head? == some '_' then none
  else magnitude.map fun n => if negative then -(n : Int) else n

/-- Digits with underscores, the first of them a digit. -/
def startsWithDigit (text : Text) : Bool :=
  text.head?.any Char.isDigit && isUnderscored Char.isDigit text

/-- The power of ten of a float; a sign is wanted where no digit stands before the point. -/
def isPower (wantSign : Bool) : Text → Bool
  | [] => true
  | e :: rest =>
      let digits :=
        match rest with
        | '-' :: digits => digits
        | '+' :: digits => digits
        | digits => if wantSign then [] else digits
      (e == 'e' || e == 'E') && !digits.isEmpty && digits.all Char.isDigit

/-- Whether a text without a sign is written as a float. -/
def isFloatText (body : Text) : Bool :=
  let isPart (c : Char) : Bool := c.isDigit || c == '_'
  let whole := body.takeWhile isPart
  match body.dropWhile isPart with
  | '.' :: rest =>
      let part := rest.takeWhile isPart
      if whole.isEmpty then !part.isEmpty && isPower true (rest.dropWhile isPart)
      else startsWithDigit whole && isPower false (rest.dropWhile isPart)
  | [] => false
  | rest => startsWithDigit whole && isPower false rest

def plainFloat? (text : Text) : Option Decimal.Double :=
  let (negative, body) := signed text
  if [".inf", ".Inf", ".INF"].any (·.toList == body) then some (.infinite negative)
  else if [".nan", ".NaN", ".NAN"].any (·.toList == text) then some .nan
  else if isFloatText body then Decimal.number? (text.filter (· != '_'))
  else none

/-- The value that a plain scalar spells. -/
def plainValue (text : Text) : Value :=
  if text.isEmpty || ["~", "null", "Null", "NULL"].any (·.toList == text) then .null
  else if ["true", "True", "TRUE"].any (·.toList == text) then .bool true
  else if ["false", "False", "FALSE"].any (·.toList == text) then .bool false
  else
    match plainFloat? text, plainInt? text with
    | some x, _ => .float x
    | none, some n => .int n
    | none, none => .text text

/-! ## Nodes -/

/-- A value read from the tokens, and the tokens behind it. -/
structure Parsed (α : Type) where
  result : α
  rest : List Token

/-- Whether no key occurs twice, and none is a mapping itself. -/
def hasSoundKeys : List (Value × Value) → Bool
  | [] => true
  | (.table _, _) :: _ => false
  | (key, _) :: rest => !rest.any (fun entry => Value.sameKey key entry.1) && hasSoundKeys rest

def table? (entries : List (Value × Value)) : Option Value :=
  if hasSoundKeys entries then some (.table entries) else none

/-- The tokens that leave the place of a key or a value in a block mapping empty. -/
def endsEntry : List Token → Bool
  | .key :: _ | .value :: _ | .blockEnd :: _ | [] => true
  | _ => false

/-- The tokens that leave the place of an item empty. -/
def endsItem : List Token → Bool
  | .item :: _ | .blockEnd :: _ | [] => true
  | _ => false

/-- The tokens that leave the place of a value inside braces empty. -/
def endsBraceValue : List Token → Bool
  | .comma :: _ | .closeBrace :: _ | [] => true
  | _ => false

/-- The tokens that leave the place of a value inside brackets empty. -/
def endsBracketValue : List Token → Bool
  | .comma :: _ | .closeBracket :: _ | [] => true
  | _ => false

/-- The tokens that leave the place of a key inside braces or brackets empty. -/
def endsFlowKey (isEnd : List Token → Bool) : List Token → Bool
  | .value :: _ => true
  | rest => isEnd rest

mutual

/-- A node.  Blocks are allowed outside brackets and braces, and a sequence at the column of its
key is allowed where `loose` is set. -/
def node? (block loose : Bool) (fuel : Nat) (tokens : List Token) : Option (Parsed Value) :=
  match fuel with
  | 0 => none
  | fuel + 1 =>
      match tokens with
      | .scalar true text :: rest => some ⟨plainValue text, rest⟩
      | .scalar false text :: rest => some ⟨.text text, rest⟩
      | .openBracket :: rest =>
          (bracketItems? true fuel rest).map fun p => ⟨.list p.result, p.rest⟩
      | .openBrace :: rest =>
          match braceEntries? true fuel rest with
          | none => none
          | some p => (table? p.result).map fun table => ⟨table, p.rest⟩
      | .item :: _ =>
          if loose then
            (looseItems? fuel tokens).map fun p => ⟨.list p.result, p.rest⟩
          else none
      | .sequenceStart :: rest =>
          if block then
            (blockItems? fuel rest).map fun p => ⟨.list p.result, p.rest⟩
          else none
      | .mappingStart :: rest =>
          if block then
            match blockEntries? fuel rest with
            | none => none
            | some p => (table? p.result).map fun table => ⟨table, p.rest⟩
          else none
      | _ => none

/-- The items of a block sequence up to its end. -/
def blockItems? (fuel : Nat) (tokens : List Token) : Option (Parsed (List Value)) :=
  match fuel with
  | 0 => none
  | fuel + 1 =>
      match tokens with
      | .item :: rest =>
          let first : Option (Parsed Value) :=
            if endsItem rest then some ⟨.null, rest⟩ else node? true false fuel rest
          match first with
          | none => none
          | some p =>
              (blockItems? fuel p.rest).map fun later => ⟨p.result :: later.result, later.rest⟩
      | .blockEnd :: rest => some ⟨[], rest⟩
      | _ => none

/-- The items of a sequence that stands at the column of its key. -/
def looseItems? (fuel : Nat) (tokens : List Token) : Option (Parsed (List Value)) :=
  match fuel with
  | 0 => none
  | fuel + 1 =>
      match tokens with
      | .item :: rest =>
          let first : Option (Parsed Value) :=
            if endsItem rest || endsEntry rest then some ⟨.null, rest⟩
            else node? true false fuel rest
          match first with
          | none => none
          | some p =>
              (looseItems? fuel p.rest).map fun later => ⟨p.result :: later.result, later.rest⟩
      | rest => some ⟨[], rest⟩

/-- The entries of a block mapping up to its end.  A key or a value may be missing. -/
def blockEntries? (fuel : Nat) (tokens : List Token) :
    Option (Parsed (List (Value × Value))) :=
  match fuel with
  | 0 => none
  | fuel + 1 =>
      let key : Option (Option (Parsed Value)) :=
        match tokens with
        | .key :: rest =>
            if endsEntry rest then some (some ⟨.null, rest⟩)
            else (node? true true fuel rest).map some
        | .value :: _ => some (some ⟨.null, tokens⟩)
        | .blockEnd :: _ => some none
        | _ => none
      match key with
      | none => none
      | some none => some ⟨[], tokens.tail⟩
      | some (some key) =>
          let value : Option (Parsed Value) :=
            match key.rest with
            | .value :: rest =>
                if endsEntry rest then some ⟨.null, rest⟩ else node? true true fuel rest
            | rest => some ⟨.null, rest⟩
          match value with
          | none => none
          | some value =>
              (blockEntries? fuel value.rest).map fun later =>
                ⟨(key.result, value.result) :: later.result, later.rest⟩

/-- The items inside brackets up to the closing one.  An item may be a mapping of one entry. -/
def bracketItems? (first : Bool) (fuel : Nat) (tokens : List Token) :
    Option (Parsed (List Value)) :=
  match fuel with
  | 0 => none
  | fuel + 1 =>
      match tokens with
      | .closeBracket :: rest => some ⟨[], rest⟩
      | _ =>
          let tokens : Option (List Token) :=
            match first, tokens with
            | true, rest => some rest
            | false, .comma :: rest => some rest
            | false, _ => none
          match tokens with
          | none => none
          | some (.closeBracket :: rest) => some ⟨[], rest⟩
          | some tokens =>
              let item : Option (Parsed Value) :=
                match tokens with
                | .key :: rest =>
                    match flowEntry? endsBracketValue fuel rest with
                    | none => none
                    | some p => some ⟨.table [p.result], p.rest⟩
                | rest => node? false false fuel rest
              match item with
              | none => none
              | some p =>
                  (bracketItems? false fuel p.rest).map fun later =>
                    ⟨p.result :: later.result, later.rest⟩

/-- The entries inside braces up to the closing one. -/
def braceEntries? (first : Bool) (fuel : Nat) (tokens : List Token) :
    Option (Parsed (List (Value × Value))) :=
  match fuel with
  | 0 => none
  | fuel + 1 =>
      match tokens with
      | .closeBrace :: rest => some ⟨[], rest⟩
      | _ =>
          let tokens : Option (List Token) :=
            match first, tokens with
            | true, rest => some rest
            | false, .comma :: rest => some rest
            | false, _ => none
          match tokens with
          | none => none
          | some (.closeBrace :: rest) => some ⟨[], rest⟩
          | some tokens =>
              let entry : Option (Parsed (Value × Value)) :=
                match tokens with
                | .key :: rest => flowEntry? endsBraceValue fuel rest
                | .value :: _ => flowEntry? endsBraceValue fuel tokens
                | rest =>
                    (node? false false fuel rest).map fun p => ⟨(p.result, .null), p.rest⟩
              match entry with
              | none => none
              | some p =>
                  (braceEntries? false fuel p.rest).map fun later =>
                    ⟨p.result :: later.result, later.rest⟩

/-- One entry inside brackets or braces; its key or its value may be missing. -/
def flowEntry? (isEnd : List Token → Bool) (fuel : Nat) (tokens : List Token) :
    Option (Parsed (Value × Value)) :=
  match fuel with
  | 0 => none
  | fuel + 1 =>
      let key : Option (Parsed Value) :=
        if endsFlowKey isEnd tokens then some ⟨.null, tokens⟩ else node? false false fuel tokens
      match key with
      | none => none
      | some key =>
          match key.rest with
          | .value :: rest =>
              if isEnd rest then some ⟨(key.result, .null), rest⟩
              else
                (node? false false fuel rest).map fun value =>
                  ⟨(key.result, value.result), value.rest⟩
          | rest => some ⟨(key.result, .null), rest⟩

end

/-! ## Documents -/

/-- The node of a document; a document may be empty. -/
def documentNode? (tokens : List Token) : Option (Parsed Value) :=
  match tokens with
  | [] | .documentStart :: _ | .documentEnd :: _ => some ⟨.null, tokens⟩
  | _ => node? true false (2 * tokens.length + 2) tokens

/-- Whether a plain scalar spells a decimal integer of too many digits. -/
def isOverlong : Token → Bool
  | .scalar true text =>
      let digits := (signed text).2
      startsWithDigit digits && Decimal.maxDigits < (digits.filter Char.isDigit).length
  | _ => false

/-- The value of the one document of a file.  Reading is given up at an integer that is too long. -/
def value (text : Text) : Except Value.ReadFault Value :=
  match tokens? text with
  | none => .error .malformed
  | some tokens =>
      let document : Option (Parsed Value) :=
        match tokens with
        | [] => some ⟨.null, []⟩
        | .documentStart :: rest => documentNode? rest
        | .documentEnd :: _ => none
        | _ => documentNode? tokens
      match document with
      | none => .error .malformed
      | some p =>
          if !p.rest.all (· == .documentEnd) then .error .malformed
          else if tokens.any isOverlong then .error .brokenOff
          else .ok p.result

end Yaml
end AsmColumns
