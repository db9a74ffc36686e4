import AsmColumns.Comment.Region
import AsmColumns.Line.Grammar
import AsmColumns.Line.Reading

/-!
# Reading a line

The reading of a line under a comment convention.  The rules are tried in a fixed order, and all
but the first see only the code of the line, which is the line with its comment regions blanked
and every offset kept:

* the body of a comment that an earlier line left open;
* a line with nothing but comments;
* a directive, a labelled line, an operation;
* a blank line; and everything else.
-/

namespace AsmColumns
namespace Line

open Comment (Convention)

/-- The line with every character of its comment regions replaced by a space. -/
def codeOf (comments : List Span) (text : Text) : Text :=
  text.blankOut (Span.covers comments)

/-- The length of the delimiter run that opens a line of comment, and 0 if another line opened
it. -/
def commentDepth (conv : Convention) (text : Text) : Nat :=
  let body := text.trimLeft
  if conv.mark.isPrefixOf body then
    match conv.repeatChar? with
    | none => 1
    | some c => (body.takeWhile (· == c)).length
  else 0

/-- Three or more delimiters in a row make a line of comment documentation. -/
def isDocDepth (conv : Convention) (depth : Nat) : Bool :=
  conv.repeatChar?.isSome && 3 ≤ depth

/-- Whether the whole line lies inside a comment that an earlier line opened. -/
def insideBlock (conv : Convention) (continued : Bool) (text : Text) : Bool :=
  continued && conv.isBlock && !conv.closing.occursIn text

/-- The kind and the parts of a line that is not all comment, from its code. -/
def readCode (base : Reading) (code : Text) : Reading :=
  match directive? code with
  | some span =>
      { base with
        kind := .directive, directive := some span, operand := operandAfter? code span.stop }
  | none =>
      match labelled? code with
      | some ⟨label, none⟩ => { base with kind := .label, label := some label }
      | some ⟨label, some token⟩ =>
          let operand := operandAfter? code token.stop
          if (token.of code).head? == some '.' then
            { base with kind := .label, label := some label, directive := some token, operand }
          else
            { base with kind := .label, label := some label, operation := some token, operand }
      | none =>
          match operation? code with
          | some ⟨condition, word⟩ =>
              { base with
                kind := .operation, condition, operation := some word,
                operand := operandAfter? code word.stop }
          | none =>
              if base.text.allBlank then { base with kind := .blank }
              else { base with kind := .unknown }

/-- The reading of a text under a convention that has the delimiters it is asked for. -/
def readText (conv : Convention) (continued : Bool) (text : Text) : Reading :=
  let regions := Comment.scan conv continued text
  let base : Reading :=
    { kind := .comment, text, comments := regions.spans, vars := variablesFrom 0 text,
      endsOpen := regions.leftOpen }
  if insideBlock conv continued text then base
  else
    let code := codeOf regions.spans text
    if !regions.spans.isEmpty && code.allBlank then
      let depth := commentDepth conv text
      { base with isDoc := isDocDepth conv depth, depth }
    else readCode base code

/-- The reading of a line.  A line that is no text is unreadable, and so is one that needs the
opening delimiter of a convention without any. -/
def read (conv : Convention) (continued : Bool) : Option Text → Reading
  | none => .unreadable [] continued
  | some text =>
      if conv.opening.isNone && Comment.needsOpening conv continued text then
        .unreadable text continued
      else readText conv continued text

end Line
end AsmColumns
