import AsmColumns.Span
import AsmColumns.Text.Word

/-!
# Shapes of a line

The code of a line, with its comments blanked, has one of three shapes.  A directive is a dot and
a word behind any blanks.  A labelled line starts at the margin with a label.  An operation is a
word behind blanks, which a condition in parentheses may precede.  Each shape is recognised from
the left by the longest run of the class it asks for next, so that a line has at most one
decomposition in each.
-/

namespace AsmColumns
namespace Line

/-- Characters of labels. -/
def isLabelChar (c : Char) : Bool :=
  Text.isWord c || c == '.' || c == '$'

/-- What follows `position`: everything up to the last character that is not blank. -/
def operandAfter? (code : Text) (position : Nat) : Option Span :=
  let rest := code.drop position
  let body := Text.trim rest
  if body.isEmpty then none
  else some ⟨position + (rest.takeWhile Text.isBlank).length, body.length⟩

/-- A dot and a word, with no colon behind it, which would make it a label. -/
def directive? (code : Text) : Option Span :=
  match code.dropWhile Text.isBlank with
  | '.' :: rest =>
      let word := rest.takeWhile Text.isWord
      if word.isEmpty || (rest.dropWhile Text.isWord).head? == some ':' then none
      else some ⟨(code.takeWhile Text.isBlank).length, word.length + 1⟩
  | _ => none

/-- A label at the margin, and the token behind it. -/
structure Labelled where
  label : Span
  token : Option Span := none
deriving DecidableEq, Repr

/-- The first token behind the label, if only spaces and tabs come before it. -/
def tokenAfter? (code : Text) (position : Nat) : Option Span :=
  let rest := code.drop position
  let gap := rest.takeWhile Text.isPad
  let token := (rest.dropWhile Text.isPad).takeWhile (!Text.isBlank ·)
  if token.isEmpty then none else some ⟨position + gap.length, token.length⟩

/-- A label is a run of label characters up to a colon, which belongs to it, or up to a blank or
the end of the line. -/
def labelLength? (code : Text) : Option Nat :=
  let run := code.takeWhile isLabelChar
  if run.isEmpty then none
  else
    match code.dropWhile isLabelChar with
    | [] => some run.length
    | c :: _ =>
        if c == ':' then some (run.length + 1)
        else if Text.isBlank c then some run.length
        else none

def labelled? (code : Text) : Option Labelled :=
  (labelLength? code).map fun length => ⟨⟨0, length⟩, tokenAfter? code length⟩

/-- An operation and the condition before it. -/
structure Operation where
  condition : Option Span := none
  word : Span
deriving DecidableEq, Repr

/-- A word behind at least one blank, from `position` on. -/
def wordAfterBlank? (code : Text) (position : Nat) : Option Span :=
  let rest := code.drop position
  let gap := rest.takeWhile Text.isBlank
  let word := (rest.dropWhile Text.isBlank).takeWhile Text.isWord
  if gap.isEmpty || word.isEmpty then none else some ⟨position + gap.length, word.length⟩

/-- The length of a condition with its parentheses, of which the second may be missing. -/
def conditionLength (word rest : Text) : Nat :=
  if rest.head? == some ')' then word.length + 2 else word.length + 1

def operation? (code : Text) : Option Operation :=
  match code with
  | '(' :: rest =>
      let word := rest.takeWhile Text.isWord
      if word.isEmpty then none
      else
        let length := conditionLength word (rest.dropWhile Text.isWord)
        (wordAfterBlank? code length).map fun span => ⟨some ⟨1, word.length⟩, span⟩
  | _ => (wordAfterBlank? code 0).map fun span => ⟨none, span⟩

/-- The variables of a line: a percent sign and a word. -/
def variablesFrom : (offset : Nat) → Text → List Span
  | _, [] => []
  | offset, c :: rest =>
      if c == '%' && rest.head?.any Text.isWord then
        ⟨offset, (rest.takeWhile Text.isWord).length + 1⟩ :: variablesFrom (offset + 1) rest
      else variablesFrom (offset + 1) rest

end Line
end AsmColumns
