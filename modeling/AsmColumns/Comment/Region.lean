import AsmColumns.Comment.Convention
import AsmColumns.Span
import AsmColumns.Text.Word

/-!
# Comment regions

The regions of a line that are comment text.  The scan walks over the line once.  Outside comments
it keeps track of quotes, because a delimiter in quotes opens nothing; at an exposed character,
one that no quote or backslash protects, it looks for the opening delimiter.  A comment that can
be closed runs to its closing delimiter, and the scan goes on behind it with no quote open.

A line may be entered inside a comment that an earlier line left open.  Its first region then
starts at the margin.
-/

namespace AsmColumns
namespace Comment

/-- What protects the characters at the current offset. -/
inductive Quote where
  | bare
  | single
  | double
deriving DecidableEq, Repr

structure Quoting where
  quote : Quote := .bare
  escaped : Bool := false
deriving DecidableEq, Repr

/-- The state behind a character that plays a part in quoting, and `none` if the character is
exposed.  A single quote behind a word character is a prime and opens nothing, and neither does
one that no other single quote follows. -/
def Quoting.step (state : Quoting) (before : Option Char) (c : Char) (rest : Text) :
    Option Quoting :=
  if state.escaped then some { state with escaped := false }
  else if c == '\\' then some { state with escaped := true }
  else if c == '"' && state.quote != .single then
    some { state with quote := if state.quote == .double then .bare else .double }
  else if c == '\'' && state.quote != .double then
    if state.quote == .single then some { state with quote := .bare }
    else if !before.any Text.isWord && rest.contains '\'' then
      some { state with quote := .single }
    else some state
  else if state.quote == .bare then none
  else some state

/-- The comment regions of a line, in order, and whether the last one is left open. -/
structure Regions where
  spans : List Span := []
  leftOpen : Bool := false
deriving DecidableEq, Repr

/-- Whether a comment opens at an exposed character.  A star multiplies unless it stands at the
margin or behind a blank. -/
def opensAt (conv : Convention) (before : Option Char) (text : Text) : Bool :=
  conv.mark.isPrefixOf text && (conv.style != .lineStar || before.all Text.isBlank)

/-- The number of characters up to the end of the first closing delimiter. -/
def lengthToClose? (conv : Convention) (text : Text) : Option Nat :=
  (Text.offsetOf? conv.closing text).map (· + conv.closing.length)

/-- The length of the region that opens at the head of `text`, if it is closed there. -/
def regionLength? (conv : Convention) (text : Text) : Option Nat :=
  (lengthToClose? conv (text.drop conv.mark.length)).map (conv.mark.length + ·)

/-- Scans from an offset on; the next `skip` characters belong to a region already found. -/
def scanFrom (conv : Convention) :
    (skip : Nat) → Quoting → (before : Option Char) → (offset : Nat) → Text → Regions
  | _, _, _, _, [] => {}
  | skip + 1, state, _, offset, c :: rest =>
      scanFrom conv skip state (some c) (offset + 1) rest
  | 0, state, before, offset, c :: rest =>
      match state.step before c rest with
      | some next => scanFrom conv 0 next (some c) (offset + 1) rest
      | none =>
          if opensAt conv before (c :: rest) then
            if conv.isBlock then
              match regionLength? conv (c :: rest) with
              | none => ⟨[⟨offset, rest.length + 1⟩], true⟩
              | some length =>
                  let later := scanFrom conv (length - 1) {} (some c) (offset + 1) rest
                  ⟨⟨offset, length⟩ :: later.spans, later.leftOpen⟩
            else ⟨[⟨offset, rest.length + 1⟩], false⟩
          else scanFrom conv 0 state (some c) (offset + 1) rest

/-- The comment regions of a line, which may be entered inside a comment. -/
def scan (conv : Convention) (continued : Bool) (text : Text) : Regions :=
  if continued && conv.isBlock then
    match lengthToClose? conv text with
    | none => ⟨if text.isEmpty then [] else [⟨0, text.length⟩], true⟩
    | some length =>
        let later := scanFrom conv length {} none 0 text
        ⟨⟨0, length⟩ :: later.spans, later.leftOpen⟩
  else scanFrom conv 0 {} none 0 text

/-- Whether a character behind the first `skip` is exposed. -/
def hasExposed : (skip : Nat) → Quoting → (before : Option Char) → Text → Bool
  | _, _, _, [] => false
  | skip + 1, state, _, c :: rest => hasExposed skip state (some c) rest
  | 0, state, before, c :: rest =>
      match state.step before c rest with
      | some next => hasExposed 0 next (some c) rest
      | none => true

/-- Whether reading the line looks for an opening delimiter: at its exposed characters, and to
measure the depth of a line that is all comment. -/
def needsOpening (conv : Convention) (continued : Bool) (text : Text) : Bool :=
  if continued && conv.isBlock then
    match lengthToClose? conv text with
    | none => false
    | some length => length == text.length || hasExposed length {} none text
  else hasExposed 0 {} none text

end Comment
end AsmColumns
