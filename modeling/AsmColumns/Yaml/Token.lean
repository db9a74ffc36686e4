import AsmColumns.Yaml.Quoted

/-!
# Tokens of a settings file

The file as a list of tokens.  Indentation is made explicit: a token starts and another one ends
every block.  Whether a scalar or a bracket is a key is only known at the colon behind it, so a
slot is left before each place where a key may start, and the colon fills the slot it belongs to.
A slot that a colon has to fill, because it stands at the column of the block, and that is passed
without one, makes the file malformed.
-/

namespace AsmColumns
namespace Yaml

inductive Token where
  | documentStart
  | documentEnd
  | sequenceStart
  | mappingStart
  | blockEnd
  | openBracket
  | closeBracket
  | openBrace
  | closeBrace
  | item
  | comma
  | key
  | value
  | scalar (isPlain : Bool) (text : Text)
  /-- A place where a key may start. -/
  | slot
  /-- A slot that turned out to start a mapping with its first key. -/
  | firstKey
deriving DecidableEq, Repr

/-- A slot that is still open. -/
structure Slot where
  position : Nat
  required : Bool
  index : Nat
  line : Nat
  column : Nat
deriving Repr

structure Scanner where
  cursor : Cursor
  tokens : Array Token := #[]
  indent : Int := -1
  outer : List Int := []
  /-- The brackets and braces that are open; true for a bracket. -/
  nesting : List Bool := []
  keyAllowed : Bool := true
  /-- The open slot of each level of nesting, the innermost first. -/
  slots : List (Option Slot) := [none]

namespace Scanner

def inFlow (s : Scanner) : Bool :=
  !s.nesting.isEmpty

def push (s : Scanner) (token : Token) : Scanner :=
  { s with tokens := s.tokens.push token }

def skip (s : Scanner) (count : Nat) : Scanner :=
  { s with cursor := s.cursor.skip count }

/-- A key and its colon stand on one line and within this distance. -/
def maxKeyLength : Nat := 1024

def isStale (s : Scanner) (slot : Slot) : Bool :=
  slot.line != s.cursor.line || slot.index + maxKeyLength < s.cursor.index

/-- Closes the slots that no colon can fill any more. -/
def dropStale (s : Scanner) : Option Scanner :=
  if s.slots.any fun slot? => slot?.any fun slot => slot.required && s.isStale slot then none
  else some { s with slots := s.slots.map (·.filter (!s.isStale ·)) }

/-- Closes the slot of the innermost level. -/
def dropSlot (s : Scanner) : Option Scanner :=
  match s.slots with
  | some slot :: rest => if slot.required then none else some { s with slots := none :: rest }
  | _ => some s

/-- Opens a slot at the cursor, if a key may start there. -/
def openSlot (s : Scanner) : Option Scanner :=
  if s.keyAllowed then
    (s.dropSlot).map fun s =>
      let slot : Slot :=
        { position := s.tokens.size
          required := !s.inFlow && s.indent == s.cursor.column
          index := s.cursor.index
          line := s.cursor.line
          column := s.cursor.column }
      { s.push .slot with slots := some slot :: s.slots.tail }
  else some s

/-- Ends the blocks that stand further right than the column. -/
def closeBlocksFrom (column : Int) (s : Scanner) : (outer : List Int) → Scanner
  | [] => s
  | indent :: outer =>
      if column < s.indent then
        closeBlocksFrom column { s.push .blockEnd with indent, outer } outer
      else s

def closeBlocks (s : Scanner) (column : Int) : Scanner :=
  if s.inFlow then s else closeBlocksFrom column s s.outer

/-- Starts a block at the column, if it stands further right than the one around it. -/
def openBlock (s : Scanner) (column : Nat) (token : Token) : Scanner :=
  if s.indent < column then
    { s.push token with indent := column, outer := s.indent :: s.outer }
  else s

/-- Passes over blanks, comments and line breaks.  Behind a line break outside brackets a key may
start. -/
def toNextToken (fuel : Nat) (s : Scanner) : Scanner :=
  match fuel with
  | 0 => s
  | fuel + 1 =>
      let isGap (c : Char) : Bool := c == ' ' || (s.inFlow && c == '\t')
      let cursor := s.cursor.skipWhile isGap
      let cursor :=
        if cursor.rest.head? == some '#' then
          cursor.skipWhile fun c => !(c == '\n' || c == '\r' || c.toNat == 0x85)
        else cursor
      match cursor.rest with
      | c :: _ =>
          if isBreak c then
            toNextToken fuel { s with cursor := cursor.step, keyAllowed := s.keyAllowed || !s.inFlow }
          else { s with cursor }
      | [] => { s with cursor }

/-! ## One token -/

def documentMark (s : Scanner) (token : Token) : Option Scanner :=
  (s.closeBlocks (-1)).dropSlot.map fun s => { (s.push token).skip 3 with keyAllowed := false }

def openFlow (s : Scanner) (bracket : Bool) : Option Scanner :=
  s.openSlot.map fun s =>
    let s := (s.push (if bracket then .openBracket else .openBrace)).skip 1
    { s with nesting := bracket :: s.nesting, slots := none :: s.slots, keyAllowed := true }

def closeFlow (s : Scanner) (token : Token) : Option Scanner :=
  s.dropSlot.map fun s =>
    let slots := if s.inFlow then s.slots.tail else s.slots
    { (s.push token).skip 1 with nesting := s.nesting.tail, slots, keyAllowed := false }

def comma (s : Scanner) : Option Scanner :=
  s.dropSlot.map fun s => { (s.push .comma).skip 1 with keyAllowed := true }

def item (s : Scanner) : Option Scanner :=
  if !s.inFlow && !s.keyAllowed then none
  else
    let s := if s.inFlow then s else s.openBlock s.cursor.column .sequenceStart
    s.dropSlot.map fun s => { (s.push .item).skip 1 with keyAllowed := true }

def explicitKey (s : Scanner) : Option Scanner :=
  if !s.inFlow && !s.keyAllowed then none
  else
    let s := if s.inFlow then s else s.openBlock s.cursor.column .mappingStart
    s.dropSlot.map fun s => { (s.push .key).skip 1 with keyAllowed := !s.inFlow }

/-- A colon behind a key fills the key's slot. -/
def colonBehind (s : Scanner) (slot : Slot) : Scanner :=
  let starts := !s.inFlow && s.indent < slot.column
  let s :=
    if starts then { s with indent := slot.column, outer := s.indent :: s.outer } else s
  let token := if starts then .firstKey else .key
  { (({ s with tokens := s.tokens.setIfInBounds slot.position token }).push .value).skip 1 with
    slots := none :: s.slots.tail, keyAllowed := false }

def colon (s : Scanner) : Option Scanner :=
  match s.slots with
  | some slot :: _ => some (s.colonBehind slot)
  | _ =>
      if !s.inFlow && !s.keyAllowed then none
      else
        let s := if s.inFlow then s else s.openBlock s.cursor.column .mappingStart
        s.dropSlot.map fun s => { (s.push .value).skip 1 with keyAllowed := !s.inFlow }

def quotedScalar (s : Scanner) (double : Bool) : Option Scanner :=
  match s.openSlot with
  | none => none
  | some s =>
      (quoted double s.cursor).map fun scanned =>
        { s.push (.scalar false scanned.text) with cursor := scanned.cursor, keyAllowed := false }

def plainScalar (s : Scanner) : Option Scanner :=
  s.openSlot.map fun s =>
    let scalar := plain s.inFlow (s.indent + 1) s.cursor
    { s.push (.scalar true scalar.scanned.text) with
      cursor := scalar.scanned.cursor, keyAllowed := scalar.brokeLine }

/-- Whether a colon at the cursor parts a key from its value. -/
def isColon (s : Scanner) (rest : Text) : Bool :=
  match s.nesting with
  | [] => atGap rest
  | true :: _ => atGap rest
  | false :: _ => s.tokens.back? != some .value || atGap rest

/-- Characters that start no plain scalar by themselves. -/
def isIndicator (c : Char) : Bool :=
  "-?:,[]\x7b\x7d#&*!|>'\"%@`".toList.contains c

/-- Whether a plain scalar starts at the cursor. -/
def isPlainStart (s : Scanner) (c : Char) (rest : Text) : Bool :=
  if atGap [c] || isBreak c then false
  else if !isIndicator c then true
  else if c == '-' then !atGap rest
  else if c == ':' && s.inFlow then !(rest.head? == some ' ' || rest.head? == some '\t')
  else !s.inFlow && (c == '?' || c == ':') && !atGap rest

/-- Reads the token at the cursor. -/
def token (s : Scanner) (c : Char) (rest : Text) : Option Scanner :=
  if s.cursor.column == 0 && s.cursor.atMark ['-', '-', '-'] then s.documentMark .documentStart
  else if s.cursor.column == 0 && s.cursor.atMark ['.', '.', '.'] then
    s.documentMark .documentEnd
  else if c == '[' then s.openFlow true
  else if c == '\x7b' then s.openFlow false
  else if c == ']' then s.closeFlow .closeBracket
  else if c == '\x7d' then s.closeFlow .closeBrace
  else if c == ',' then s.comma
  else if c == '-' && atGap rest then s.item
  else if c == '?' && (s.inFlow || atGap rest) then s.explicitKey
  else if c == ':' && s.isColon rest then s.colon
  else if c == '\'' then s.quotedScalar false
  else if c == '"' then s.quotedScalar true
  else if s.isPlainStart c rest then s.plainScalar
  else none

/-- Reads tokens to the end of the file. -/
def run (fuel : Nat) (s : Scanner) : Option Scanner :=
  match fuel with
  | 0 => none
  | fuel + 1 =>
      match (s.toNextToken (s.cursor.rest.length + 1)).dropStale with
      | none => none
      | some s =>
          let s := s.closeBlocks s.cursor.column
          match s.cursor.rest with
          | [] => (s.closeBlocks (-1)).dropSlot
          | c :: rest =>
              match s.token c rest with
              | none => none
              | some s => run fuel s

end Scanner

/-- Characters that a settings file may hold. -/
def isAllowed (c : Char) : Bool :=
  let n := c.toNat
  n == 9 || n == 10 || n == 13 || (32 ≤ n && n ≤ 126) || n == 0x85 ||
    (0xA0 ≤ n && n ≤ 0xD7FF) || (0xE000 ≤ n && n ≤ 0xFFFD) || 0x10000 ≤ n

/-- A filled slot is the token it stands for, and an empty one is nothing. -/
def Token.settle : Token → List Token
  | .slot => []
  | .firstKey => [.mappingStart, .key]
  | token => [token]

/-- The tokens of a file. -/
def tokens? (text : Text) : Option (List Token) :=
  if !text.all isAllowed then none
  else
    let text := if text.head?.any (·.toNat == 0xFEFF) then text.drop 1 else text
    let scanner : Scanner := { cursor := { rest := text } }
    (scanner.run (text.length + 1)).map fun s => s.tokens.toList.flatMap Token.settle

end Yaml
end AsmColumns
