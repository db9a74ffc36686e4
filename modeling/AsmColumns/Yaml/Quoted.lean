import AsmColumns.Yaml.Cursor

/-!
# Scalars in a settings file

The three ways to write a text: plain, in single quotes and in double quotes.  In each of them a
line break counts as a space, and a run of line breaks as one less than its number.  Single quotes
are doubled inside single quotes; a backslash inside double quotes starts an escape.
-/

namespace AsmColumns
namespace Yaml

/-- A text read from the file, and the cursor behind it. -/
structure Scanned where
  text : Text
  cursor : Cursor

/-! ## Folding of line breaks -/

/-- The line breaks from the cursor on, with the blanks in the class between them.  There are none
where a document mark stands at the margin. -/
def breaksFrom (inClass : Char → Bool) (fuel : Nat) (cursor : Cursor) : Option Scanned :=
  match fuel with
  | 0 => none
  | fuel + 1 =>
      if cursor.atDocumentMark then none
      else
        let cursor := cursor.skipWhile inClass
        match cursor.rest with
        | c :: _ =>
            if isBreak c then
              (breaksFrom inClass fuel cursor.step).map fun later =>
                ⟨Cursor.breakText c :: later.text, later.cursor⟩
            else some ⟨[], cursor⟩
        | [] => some ⟨[], cursor⟩

/-- What a first line break and those behind it amount to. -/
def fold (first : Char) (later : Text) : Text :=
  if Cursor.breakText first != '\n' then first :: later
  else if later.isEmpty then [' ']
  else later

/-! ## Quoted scalars -/

/-- The characters that one letter behind a backslash stands for. -/
def escapeOf? (c : Char) : Option Char :=
  match c with
  | '0' => some (Char.ofNat 0)
  | 'a' => some (Char.ofNat 7)
  | 'b' => some (Char.ofNat 8)
  | 't' | '\t' => some '\t'
  | 'n' => some '\n'
  | 'v' => some (Char.ofNat 11)
  | 'f' => some (Char.ofNat 12)
  | 'r' => some '\r'
  | 'e' => some (Char.ofNat 27)
  | ' ' | '"' | '/' | '\\' => some c
  | 'N' => some (Char.ofNat 0x85)
  | '_' => some (Char.ofNat 0xA0)
  | 'L' => some (Char.ofNat 0x2028)
  | 'P' => some (Char.ofNat 0x2029)
  | _ => none

/-- The number of hexadecimal digits behind the letter of an escape by code point. -/
def escapeWidth? (c : Char) : Option Nat :=
  match c with
  | 'x' => some 2
  | 'u' => some 4
  | 'U' => some 8
  | _ => none

def hexDigit? (c : Char) : Option Nat :=
  if c.isDigit then some (c.toNat - 48)
  else if 'a' ≤ c && c ≤ 'f' then some (c.toNat - 87)
  else if 'A' ≤ c && c ≤ 'F' then some (c.toNat - 55)
  else none

/-- The number that a run of hexadecimal digits spells. -/
def hexValue? (digits : Text) : Option Nat :=
  digits.foldlM (fun value c => (hexDigit? c).map (value * 16 + ·)) 0

/-- The blanks and line breaks inside quotes. -/
def quotedGap (fuel : Nat) (cursor : Cursor) : Option Scanned :=
  let blanks := cursor.rest.takeWhile Text.isPad
  let cursor := cursor.skip blanks.length
  match cursor.rest with
  | [] => none
  | c :: _ =>
      if isBreak c then
        (breaksFrom Text.isPad fuel cursor.step).map fun later =>
          ⟨fold c later.text, later.cursor⟩
      else some ⟨blanks, cursor⟩

/-- What an escape stands for, from the character behind the backslash on. -/
def escape (fuel : Nat) (cursor : Cursor) : Option Scanned :=
  match cursor.rest with
  | [] => none
  | c :: rest =>
      match escapeOf? c, escapeWidth? c with
      | some escaped, _ => some ⟨[escaped], cursor.step⟩
      | none, some width =>
          let digits := rest.take width
          if digits.length < width then none
          else
            (hexValue? digits).map fun value =>
              ⟨[Char.ofNat value], cursor.skip (width + 1)⟩
      | none, none =>
          if isBreak c then
            breaksFrom Text.isPad fuel cursor.step
          else none

/-- Reads up to the closing quote and over it. -/
def quotedFrom (double : Bool) (fuel : Nat) (cursor : Cursor) : Option Scanned :=
  match fuel with
  | 0 => none
  | fuel + 1 =>
      match cursor.rest with
      | [] => none
      | c :: rest =>
          let quote := if double then '"' else '\''
          if c == quote then
            if !double && rest.head? == some '\'' then
              (quotedFrom double fuel (cursor.skip 2)).map fun later =>
                ⟨'\'' :: later.text, later.cursor⟩
            else some ⟨[], cursor.step⟩
          else if double && c == '\\' then
            match escape (fuel + 1) cursor.step with
            | none => none
            | some escaped =>
                (quotedFrom double fuel escaped.cursor).map fun later =>
                  ⟨escaped.text ++ later.text, later.cursor⟩
          else if Text.isPad c || isBreak c then
            match quotedGap (fuel + 1) cursor with
            | none => none
            | some gap =>
                (quotedFrom double fuel gap.cursor).map fun later =>
                  ⟨gap.text ++ later.text, later.cursor⟩
          else
            (quotedFrom double fuel cursor.step).map fun later => ⟨c :: later.text, later.cursor⟩

/-- The scalar that starts at the opening quote. -/
def quoted (double : Bool) (cursor : Cursor) : Option Scanned :=
  quotedFrom double (cursor.rest.length + 1) cursor.step

/-! ## Plain scalars -/

/-- Marks that end a plain scalar inside brackets or braces. -/
def isFlowMark (c : Char) : Bool :=
  c == ',' || c == ':' || c == '[' || c == ']' || c == '\x7b' || c == '\x7d'

/-- The longest piece of a plain scalar without blanks.  A colon belongs to it if no gap follows. -/
def plainPiece (inFlow : Bool) : Text → Text
  | [] => []
  | c :: rest =>
      if c == ':' && !atGap rest then c :: plainPiece inFlow rest
      else if atGap (c :: rest) || c == ':' || (inFlow && isFlowMark c) then []
      else c :: plainPiece inFlow rest

/-- A plain scalar read so far, and whether its last line break allows a key to start. -/
structure Plain where
  scanned : Scanned
  brokeLine : Bool

/-- The blanks and line breaks behind a piece of a plain scalar; `none` if a document mark follows
them.  The flag says whether there was a line break. -/
def plainGap (cursor : Cursor) : Option Scanned × Cursor × Bool :=
  let blanks := cursor.rest.takeWhile (· == ' ')
  let cursor := cursor.skip blanks.length
  match cursor.rest with
  | c :: _ =>
      if isBreak c then
        let behind := cursor.step
        match breaksFrom (· == ' ') (behind.rest.length + 1) behind with
        | none => (none, behind, true)
        | some later => (some ⟨fold c later.text, later.cursor⟩, later.cursor, true)
      else (some ⟨blanks, cursor⟩, cursor, false)
  | [] => (some ⟨blanks, cursor⟩, cursor, false)

/-- Reads pieces and the gaps between them.  A piece on a later line has to stand at `indent` or
further right, unless brackets or braces are open. -/
def plainFrom (inFlow : Bool) (indent : Int) (fuel : Nat) (cursor : Cursor) : Plain :=
  match fuel with
  | 0 => ⟨⟨[], cursor⟩, false⟩
  | fuel + 1 =>
      let piece := plainPiece inFlow cursor.rest
      let behind := cursor.skip piece.length
      match plainGap behind with
      | (none, after, _) => ⟨⟨piece, after⟩, true⟩
      | (some gap, after, broke) =>
          let goesOn := !gap.text.isEmpty && gap.cursor.rest.head? != some '#' &&
            (inFlow || indent ≤ gap.cursor.column) &&
            !(plainPiece inFlow gap.cursor.rest).isEmpty
          if goesOn then
            let later := plainFrom inFlow indent fuel gap.cursor
            ⟨⟨piece ++ gap.text ++ later.scanned.text, later.scanned.cursor⟩, later.brokeLine⟩
          else ⟨⟨piece, after⟩, broke⟩

/-- The plain scalar at the cursor. -/
def plain (inFlow : Bool) (indent : Int) (cursor : Cursor) : Plain :=
  plainFrom inFlow indent (cursor.rest.length + 1) cursor

end Yaml
end AsmColumns
