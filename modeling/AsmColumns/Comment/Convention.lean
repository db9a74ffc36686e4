import AsmColumns.Text.Basic

/-!
# Comment conventions

Assemblers disagree on how a comment is written.  A style names one of the six usual ways, and a
convention is what the reader of a line needs to know about it: the delimiter that opens a comment,
the one that closes it if comments can end before the line does, and whether the opening delimiter
is a single character that may be repeated for emphasis.

A convention put together by hand may lack its opening delimiter.  Such a convention still reads
the lines on which no opening delimiter is ever looked for.
-/

namespace AsmColumns
namespace Comment

inductive Style where
  | lineSemicolon
  | lineHash
  | lineStar
  | lineAt
  | blockSlashSlash
  | blockSlashStar
deriving DecidableEq, Repr, Hashable, Inhabited

namespace Style

def all : List Style :=
  [lineSemicolon, lineHash, lineStar, lineAt, blockSlashSlash, blockSlashStar]

/-- The name of a style in settings. -/
def name : Style → Text
  | lineSemicolon => "lineSemicolon".toList
  | lineHash => "lineHash".toList
  | lineStar => "lineStar".toList
  | lineAt => "lineAt".toList
  | blockSlashSlash => "blockSlashSlash".toList
  | blockSlashStar => "blockSlashStar".toList

/-- The lower-case form of a character, as far as it can be a letter of a style's name: the Kelvin
sign is the one character beyond the first 128 whose lower case is such a letter. -/
def foldChar (c : Char) : Char :=
  if c == '\u212a' then 'k' else c.toLower

/-- Names are compared without regard to case, underscores and hyphens. -/
def foldName (text : Text) : Text :=
  (text.filter fun c => c != '_' && c != '-').map foldChar

/-- The style that a name stands for, in any of its spellings. -/
def ofName? (text : Text) : Option Style :=
  all.find? fun style => foldName style.name == foldName text

end Style

structure Convention where
  style : Style
  opening : Option Text
  closing : Text := []
  repeatable : Bool := false
deriving DecidableEq, Repr, Hashable

namespace Convention

/-- The standard convention of a style. -/
def ofStyle : Style → Convention
  | .lineSemicolon => ⟨.lineSemicolon, some [';'], [], true⟩
  | .lineHash => ⟨.lineHash, some ['#'], [], true⟩
  | .lineStar => ⟨.lineStar, some ['*'], [], true⟩
  | .lineAt => ⟨.lineAt, some ['@'], [], true⟩
  | .blockSlashSlash => ⟨.blockSlashSlash, some ['/', '/'], [], false⟩
  | .blockSlashStar => ⟨.blockSlashStar, some ['/', '*'], ['*', '/'], false⟩

instance : Inhabited Convention := ⟨ofStyle .lineSemicolon⟩

/-- The opening delimiter; empty if the convention lacks one. -/
def mark (conv : Convention) : Text :=
  conv.opening.getD []

/-- Whether comments can end before the line does, and go on over several lines. -/
def isBlock (conv : Convention) : Bool :=
  !conv.closing.isEmpty && conv.opening != some conv.closing

/-- The character that a longer opening run repeats, when the delimiter is a run of one. -/
def repeatChar? (conv : Convention) : Option Char :=
  match conv.mark with
  | [] => none
  | c :: rest => if rest.all (· == c) then some c else none

end Convention
end Comment
end AsmColumns
