import AsmColumns.Command.Highlight
import AsmColumns.Diff.Unified
import AsmColumns.Session.Basic
import AsmColumns.Text.Breaks

/-!
# What is shown

The items that a command prints: lines of marked-up text, panels around such text or around a
difference, and the table of a file's lines.  How a terminal draws them is left to the outer layer.
-/

namespace AsmColumns
namespace Command

structure Row where
  number : String
  kind : String
  column : String
  current : String
  source : Highlight

inductive Body where
  | markup (text : String)
  | diff (lines : List Text)

inductive Item where
  | markup (text : String)
  | panel (body : Body) (title : Option String) (border : String) (wide : Bool)
  | table (title : String) (header : List String) (rows : List Row)

namespace Item

/-- The name of a line's kind; documentation has a name of its own. -/
def kindName (r : Line.Reading) : String :=
  if r.isDoc then "doc-comment" else r.kind.name

def rowOf (report : Session.Report) : Row :=
  { number := toString report.number
    kind := kindName report.reading
    column := toString report.column
    current := toString report.current
    source := .ofReading report.reading }

/-- The table of the lines of a file, if the columns of the lines can be written.  The other numbers
count lines and characters, of which there are never so many. -/
def lineTable (name : String) (reports : List Session.Report) : Except Decimal.Unwritable Item :=
  if reports.all fun report => Decimal.isWritable report.column then
    .ok (.table ("Line Classification: " ++ name) ["#", "Kind", "Indent", "Now", "Source"]
      (reports.map rowOf))
  else .error {}

/-- How many lines of each kind there are, for the kinds that occur. -/
def kindCounts (reports : List Session.Report) : List String :=
  Line.Kind.all.filterMap fun kind =>
    let count := (reports.filter fun report => report.reading.kind = kind).length
    if count = 0 then none else some (kind.name ++ ": " ++ toString count)

def layoutStatus (misaligned : List Nat) : String :=
  if misaligned.isEmpty then "[green]aligned[/green]"
  else "[yellow]" ++ toString misaligned.length ++ " line(s) off layout[/yellow]"

/-- The panel that sums up a file. -/
def summary (name : String) (reports : List Session.Report) (misaligned : List Nat) : Item :=
  let text := "[bold white]" ++ name ++ "[/bold white]\nLines:   " ++ toString reports.length ++
    " (" ++ ", ".intercalate (kindCounts reports) ++ ")\nLayout:  " ++ layoutStatus misaligned
  .panel (.markup text) none "dim" true

/-- A line that is off its layout. -/
def offLayout (name : String) (number : Nat) : Item :=
  .markup ("[yellow]" ++ name ++ ":" ++ toString number ++ "[/yellow] off layout")

/-- The difference between a text and its layout, or a note that there is none. -/
def difference (name : Text) (text laidOut : Text) : Item :=
  let lines := Diff.unified ("Original: ".toList ++ name) "Indented Version".toList
    text.shownLines laidOut.shownLines
  if lines.isEmpty then
    .markup ("[dim]ℹ " ++ String.ofList name ++ " already follows the column layout.[/dim]")
  else .panel (.diff lines) (some ("Proposed Layout: " ++ String.ofList name)) "green" true

def rewrote (name : String) (count : Nat) : Item :=
  .panel (.markup ("[green]Rewrote " ++ toString count ++ " line(s) in " ++ name ++ "[/green]"))
    none "green" false

def settingsError (message : String) : Item :=
  .markup ("[bold red]Configuration error:[/bold red] " ++ message)

def error (message : String) : Item :=
  .markup ("[bold red]Error:[/bold red] " ++ message)

end Item
end Command
end AsmColumns
