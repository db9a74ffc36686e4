import AsmColumns.Command.Run

/-!
# The command line

The outer layer: it takes the files that the words of the command line name from the disk, runs the
command on them, prints what the command shows, and writes back the files that have changed.
-/

namespace AsmColumns
namespace Terminal

open Command (Body Grammar Item Outcome Row)

/-- The paths that a word may name: the word itself, and the value behind its equals sign. -/
def pathsOf (word : Text) : List Directory.Path :=
  let (_, value?) := Grammar.cutAtEquals word
  (word :: value?.toList).map Directory.Path.ofText

/-- The folders that a path goes through. -/
def foldersOf (path : Directory.Path) : List Directory.Path :=
  (List.range (path.parts.length - 1)).map fun n => { path with parts := path.parts.take (n + 1) }

/-- The entry at a path of the disk, if there is one. -/
def entryAt? (path : Directory.Path) : IO (Option Directory.Entry) := do
  let name := String.ofList path.text
  try
    if ← (← IO.FS.realPath name).isDir then
      return some .folder
    else
      return some (.file (← IO.FS.readBinFile name))
  catch _ => return none

/-- The part of the disk that the words name. -/
def directoryOf (words : List Text) : IO Directory := do
  let paths := words.flatMap pathsOf
  let temporary := paths.map (·.withEnding Command.temporaryEnding)
  let mut dir : Directory := {}
  for path in paths.flatMap foldersOf ++ paths ++ temporary do
    match ← entryAt? path with
    | some entry => dir := dir.put path.text entry
    | none => pure ()
  return dir

/-- Writes a file that has changed: under another name first, and then in place of the old one. -/
def writeBack (before : Directory) (name : Text) (bytes : ByteArray) : IO Unit := do
  let changed :=
    match before.entry? name with
    | some (.file old) => old.data != bytes.data
    | _ => true
  if changed then
    let target := String.ofList name
    let temporary := target ++ String.ofList Command.temporaryEnding
    IO.FS.writeBinFile temporary bytes
    IO.FS.rename temporary target

def printRow (cells : List String) : IO Unit :=
  IO.println ("  ".intercalate cells)

def printBody : Body → IO Unit
  | .markup text => IO.println text
  | .diff lines => for line in lines do IO.println (String.ofList line)

def printItem : Item → IO Unit
  | .markup text => IO.println text
  | .panel body title _ _ => do
      if let some title := title then IO.println title
      printBody body
  | .table title header rows => do
      IO.println title
      printRow header
      for row in rows do
        printRow [row.number, row.kind, row.column, row.current, String.ofList row.source.plain]

/-- The exit status of the program. -/
def statusOf (outcome : Outcome) : UInt32 :=
  match outcome.ending with
  | .exit code => code.toUInt32
  | .usage code => code.toUInt32
  | .failed _ => 1

def run (words : List Text) : IO UInt32 := do
  let before ← directoryOf words
  let outcome := Command.run .standard before words
  unless outcome.output.isEmpty do
    IO.println outcome.output
  for item in outcome.printed do
    printItem item
  for (name, entry) in outcome.directory.entries do
    match entry with
    | .file bytes => writeBack before name bytes
    | _ => pure ()
  return statusOf outcome

end Terminal
end AsmColumns

def main (arguments : List String) : IO UInt32 :=
  AsmColumns.Terminal.run (arguments.map String.toList)
