import AsmColumns.Text.Basic

/-!
# Lines of a text

A text is cut into lines at its newlines, and a text always has a line.  Joining the lines by
newlines gives the text back.
-/

namespace AsmColumns
namespace Text

def lines : Text → List Text
  | [] => [[]]
  | c :: rest =>
      if c == '\n' then [] :: lines rest
      else
        match lines rest with
        | [] => [[c]]
        | line :: later => (c :: line) :: later

def unlines : List Text → Text
  | [] => []
  | [line] => line
  | line :: later => line ++ '\n' :: unlines later

end Text
end AsmColumns
