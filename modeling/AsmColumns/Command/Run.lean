import AsmColumns.Command.Display
import AsmColumns.Command.Request
import AsmColumns.Settings.File
import AsmColumns.Yaml.Document

/-!
# Running a command

A command runs on a directory and leaves a directory behind.  The settings come from the file that
is asked for, and the options of the command line override them.  The text of the source file, less
one final newline, is read and laid out.  Showing and checking leave the directory as it is;
indenting replaces the file if it is asked to write and some line is off its layout.

How a settings file is written, and what the console takes, is up to the host.  A console may refuse
an item: one whose text closes a markup that was not opened, or has a character that the terminal
cannot show.  The command ends there.
-/

namespace AsmColumns
namespace Command

/-- Why the console does not print an item. -/
inductive Refusal where
  | markup
  | encoding
deriving DecidableEq, Repr

/-- What stops a command for good. -/
inductive Failure where
  /-- The bytes of a file are no text. -/
  | notText
  /-- A path has a null character in it. -/
  | nullCharacter
  /-- The keys of the settings file cannot be put in order. -/
  | mixedKeys
  /-- A tab stop lies at infinity. -/
  | infiniteStop
  /-- A value that is refused, noted or shown cannot be written out. -/
  | unwritable
  /-- The reader gave up on the settings file. -/
  | brokenOff
  | layout (f : Layout.Fault)
  | console (r : Refusal)
deriving DecidableEq, Repr

/-- How a command ends. -/
inductive Ending where
  | exit (code : Nat)
  /-- The words of the command line ended it. -/
  | usage (code : Nat)
  | failed (f : Failure)
deriving DecidableEq, Repr

structure Outcome where
  ending : Ending
  printed : List Item := []
  /-- The first line of plain output. -/
  output : String := ""
  directory : Directory

def exitOk : Nat := 0

def exitMisaligned : Nat := 1

def exitError : Nat := 2

/-! ## Hosts -/

/-- What a command runs in: the reader of settings files, and the console. -/
structure Host where
  document : Text → Except Value.ReadFault Value
  refusal? : Item → Option Refusal

namespace Host

/-- A host with a console that takes every item as it is. -/
def standard : Host where
  document := Yaml.value
  refusal? _ := none

/-- Prints items one by one and goes on; at an item that is refused the command ends. -/
def printing (host : Host) (dir : Directory) (items : List Item) (rest : Outcome) : Outcome :=
  match items with
  | [] => rest
  | item :: later =>
      match host.refusal? item with
      | some r => { ending := .failed (.console r), directory := dir }
      | none =>
          let outcome := host.printing dir later rest
          { outcome with printed := item :: outcome.printed }

end Host

/-! ## Settings -/

/-- The pieces of a text between commas. -/
def splitCommas : Text → List Text
  | [] => [[]]
  | c :: rest =>
      if c == ',' then [] :: splitCommas rest
      else
        match splitCommas rest with
        | [] => [[c]]
        | piece :: later => (c :: piece) :: later

/-- The tab stops of the command line; blank pieces are passed over. -/
def tabStopsOf (text : Text) : Except Settings.Fault (List Int) :=
  match ((splitCommas text).filter (!Text.allBlank ·)).mapM Decimal.integer? with
  | some stops => .ok stops
  | none => .error ⟨Settings.Key.tabStops.name, .text text, "expected integers"⟩

/-- The options that a request overrides. -/
def Request.overrides (request : Request) : Except Settings.Fault (List (Value × Value)) :=
  let style := request.style.map fun style =>
    (Value.text Settings.Key.commentStyle.name, Value.text style.name)
  let column := request.commentColumn.map fun column =>
    (Value.text Settings.Key.commentColumn.name, Value.int column)
  let front := style.toList ++ column.toList
  match request.tabStops with
  | none | some [] => .ok front
  | some text =>
      (tabStopsOf text).map fun stops =>
        front ++ [(.text Settings.Key.tabStops.name, .list (stops.map .int))]

/-- The settings without those of the command line. -/
def Request.fileSettings (request : Request) (host : Host) (dir : Directory) :
    Except Settings.LoadFault Settings :=
  match request.config with
  | none | some [] => .ok {}
  | some path => Settings.load host.document dir (.ofText path)

/-- The session of settings with some options overridden.  The options are noted if there are
any. -/
def overriding (settings : Settings) (options : List (Value × Value)) :
    Except Settings.Rejection Session :=
  if options.isEmpty then .ok (.ofSettings settings)
  else if !(Value.table options).isWritable then .error .unwritable
  else
    match (Session.ofSettings settings).configure options with
    | (.ok _, session) => .ok session
    | (.error e, _) => .error e

/-- The session that a request runs in. -/
def Request.session (request : Request) (host : Host) (dir : Directory) :
    Except Settings.LoadFault Session :=
  match request.fileSettings host dir with
  | .error f => .error f
  | .ok settings =>
      match request.overrides with
      | .error f => .error (.rejected (.fault f))
      | .ok options => (overriding settings options).mapError .rejected

/-! ## Source files -/

/-- The text of a source file less one final newline, and whether it had one. -/
structure Source where
  body : Text
  newline : Bool

def Source.ofText (text : Text) : Source :=
  if text.getLast? = some '\n' then ⟨text.dropLast, true⟩ else ⟨text, false⟩

/-- The text with the final newline that the source had. -/
def Source.close (source : Source) (body : Text) : Text :=
  if source.newline then body ++ ['\n'] else body

/-- The numbers of the lines that differ from their layout by more than blanks at their end. -/
def misalignedFrom (number : Nat) : List Text → List Text → List Nat
  | old :: olds, new :: news =>
      let later := misalignedFrom (number + 1) olds news
      if old.trimRight = new then later else number :: later
  | _, _ => []

def misaligned (text laidOut : Text) : List Nat :=
  misalignedFrom 1 text.lines laidOut.lines

/-! ## Writing -/

/-- The ending of the name under which a file is written before it replaces the old one. -/
def temporaryEnding : Text := ".asmode.tmp".toList

/-- Why a file was not replaced. -/
def writeFault (f : Directory.Fault) : String :=
  match f with
  | .isDirectory _ => f.message
  | _ => "Atomic write failed: " ++ f.message

/-- Replaces a file in one go: it is written under another name first.  A folder of that name
cannot be removed either, and that is what is reported then. -/
def replaceFile (dir : Directory) (path : Directory.Path) (text : Text) :
    Except String Directory :=
  let temporary := path.withEnding temporaryEnding
  match dir.write temporary (Directory.encode text) with
  | .error f => .error (writeFault f)
  | .ok dir => (dir.move temporary path).mapError writeFault

/-! ## Commands -/

/-- A source file that was read and laid out. -/
structure Work where
  path : Directory.Path
  source : Source
  reports : List Session.Report
  laidOut : Text

def Work.misaligned (work : Work) : List Nat :=
  Command.misaligned work.source.body work.laidOut

def Work.name (work : Work) : String :=
  String.ofList work.path.name

def Work.summary (work : Work) : Item :=
  .summary work.name work.reports work.misaligned

def runShow (host : Host) (dir : Directory) (work : Work) : Outcome :=
  match Item.lineTable work.name work.reports with
  | .error _ => { ending := .failed .unwritable, directory := dir }
  | .ok table =>
      host.printing dir [table, work.summary] { ending := .exit exitOk, directory := dir }

def runCheck (host : Host) (dir : Directory) (work : Work) : Outcome :=
  host.printing dir (work.summary :: work.misaligned.map (.offLayout work.name))
    { ending := .exit (if work.misaligned.isEmpty then exitOk else exitMisaligned)
      directory := dir }

/-- What is shown of a layout before it is written. -/
def Work.preview (work : Work) (request : Request) : List Item :=
  if request.diff || !request.write then
    [.difference work.path.name work.source.body work.laidOut]
  else []

/-- Writes a layout if it is to be written. -/
def writeLayout (host : Host) (dir : Directory) (request : Request) (work : Work) : Outcome :=
  if request.write && !work.misaligned.isEmpty then
    match replaceFile dir work.path (work.source.close work.laidOut) with
    | .error message =>
        host.printing dir [.error message] { ending := .exit exitError, directory := dir }
    | .ok written =>
        host.printing written [.rewrote work.name work.misaligned.length]
          { ending := .exit exitOk, directory := written }
  else { ending := .exit exitOk, directory := dir }

def runIndent (host : Host) (dir : Directory) (request : Request) (work : Work) : Outcome :=
  host.printing dir (work.preview request) (writeLayout host dir request work)

/-- A command that could not get as far as the text of the source. -/
def stopped (host : Host) (dir : Directory) (request : Request) (f : Settings.LoadFault) :
    Outcome :=
  let exitWith (item : Item) : Outcome :=
    host.printing dir [item] { ending := .exit exitError, directory := dir }
  match f with
  | .rejected (.fault f) => exitWith (.settingsError f.message)
  | .malformed path =>
      let fault : Settings.Fault := ⟨Settings.fileOption, .text path.text, "malformed"⟩
      exitWith (.settingsError fault.message)
  | .unreadable .nullCharacter => { ending := .failed .nullCharacter, directory := dir }
  | .unreadable f =>
      exitWith (.error ("cannot read '" ++ String.ofList request.path ++ "': " ++ f.message))
  | .rejected .infiniteStop => { ending := .failed .infiniteStop, directory := dir }
  | .rejected .unwritable => { ending := .failed .unwritable, directory := dir }
  | .mixedKeys => { ending := .failed .mixedKeys, directory := dir }
  | .notText => { ending := .failed .notText, directory := dir }
  | .brokenOff => { ending := .failed .brokenOff, directory := dir }

/-- The session of a request and the text of its source file. -/
def Request.prepare (request : Request) (host : Host) (dir : Directory) :
    Except Settings.LoadFault (Session × Text) :=
  match request.session host dir with
  | .error f => .error f
  | .ok session =>
      match dir.read (.ofText request.path) with
      | .error f => .error (.unreadable f)
      | .ok bytes =>
          match Directory.decodeMarked? bytes with
          | none => .error .notText
          | some text => .ok (session, text)

def Request.run (request : Request) (host : Host) (dir : Directory) : Outcome :=
  match request.prepare host dir with
  | .error f => stopped host dir request f
  | .ok (session, text) =>
      let source := Source.ofText text
      let (reports, session) := session.report source.body
      match (session.layout source.body).1 with
      | .error f => { ending := .failed (.layout f), directory := dir }
      | .ok laidOut =>
          let work : Work := ⟨.ofText request.path, source, reports, laidOut⟩
          match request.verb with
          | .showLines => runShow host dir work
          | .check => runCheck host dir work
          | .indent => runIndent host dir request work

/-- Runs the command that the words of a command line ask for. -/
def run (host : Host) (dir : Directory) (words : List Text) : Outcome :=
  match Invocation.ofWords words with
  | .mistake => { ending := .usage exitError, directory := dir }
  | .help line => { ending := .usage exitOk, output := line, directory := dir }
  | .version line => { ending := .usage exitOk, output := line, directory := dir }
  | .idle help => { ending := .exit exitOk, output := help, directory := dir }
  | .run request => request.run host dir

end Command
end AsmColumns
