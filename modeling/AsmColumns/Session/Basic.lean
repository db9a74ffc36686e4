import AsmColumns.Comment.Bounds
import AsmColumns.Comment.Tracker
import AsmColumns.Edit.Indent
import AsmColumns.Edit.Keys
import AsmColumns.Layout.Line
import AsmColumns.Line.Reader
import AsmColumns.Settings.Basic
import AsmColumns.Text.Lines

/-!
# Editing sessions

A session belongs to one open buffer.  It holds the settings, the tracker of the comment
convention and the reader, and keeps the three in step: the tracker and the reader always work
with the convention of the style in the settings.  Every operation is a function of the session;
one that can change it returns the session after it, also where it fails.

Changed settings and the actions of a key are noted in a log.  A note with an integer that cannot be
written makes the operation fail, when the settings have been changed already.
-/

namespace AsmColumns

open Comment (Convention Style Tracker)
open Edit (Action)
open Line (Reader Reading)

structure Session where
  settings : Settings := {}
  tracker : Tracker := .ofStyle .lineSemicolon
  reader : Reader := {}

namespace Session

def ofSettings (settings : Settings) : Session :=
  { settings
    tracker := .ofStyle settings.style
    reader := { convention := .ofStyle settings.style } }

def convention (s : Session) : Convention :=
  s.tracker.convention

/-! ## Changing settings -/

def activateStyle (s : Session) (style : Style) : Session :=
  let tracker := s.tracker.activate style
  { settings := { s.settings with style := tracker.convention.style }
    tracker
    reader := { s.reader with convention := tracker.convention } }

/-- Makes the style of a name the active one. -/
def activate (s : Session) (name : Value) : Except Settings.Rejection Session :=
  (Tracker.styleNamed name).map s.activateStyle

/-- Changes options, all of them or none.  The settings are noted when they have been changed. -/
def configure (s : Session) (options : List (Value × Value)) :
    Except Settings.Rejection Settings × Session :=
  match s.settings.update options with
  | .error e => (.error e, s)
  | .ok settings =>
      let s := { s.activateStyle settings.style with settings }
      (if settings.isWritable then .ok settings else .error .unwritable, s)

/-! ## Reading -/

def read (s : Session) (line : Option Text) (continued : Bool) : Reading × Session :=
  let (reading, reader) := s.reader.read line continued (some s.convention)
  (reading, { s with reader })

/-- Reads every line of a text, and records the pass. -/
def readText (s : Session) (text : Text) : List Reading × Session :=
  let lines := text.lines.map some
  let (readings, reader) := s.reader.readLines lines false (some s.convention)
  (readings, { s with reader, tracker := s.tracker.remember readings })

/-- Whether a position of the text last read lies inside a comment. -/
def isInside (s : Session) (position : Int) : Except Decimal.Unwritable Bool :=
  Comment.isInside position s.tracker.lastPass

/-! ## Columns -/

def page (s : Session) : Layout.Page :=
  .whole s.convention s.settings.stops s.settings.commentColumn

def columnOf (s : Session) (r : Reading) : Int :=
  s.page.column r

def columnFor (s : Session) (line : Option Text) (continued : Bool) : Int × Session :=
  let (reading, s) := s.read line continued
  (s.columnOf reading, s)

/-- The layouts of the lines on a page, up to the first fault. -/
def layoutLines (page : Layout.Page) : List Reading → Except Layout.Fault (List Text)
  | [] => .ok []
  | r :: rest =>
      match page.line r with
      | .error e => .error e
      | .ok line =>
          match layoutLines page rest with
          | .error e => .error e
          | .ok lines => .ok (line :: lines)

/-- The text in canonical columns. -/
def layout (s : Session) (text : Text) : Except Layout.Fault Text × Session :=
  let (readings, s) := s.readText text
  ((layoutLines s.page readings).map Text.unlines, s)

/-- A line with the column it belongs at and the one it stands at. -/
structure Report where
  number : Nat
  reading : Reading
  column : Int
  current : Nat

def report (s : Session) (text : Text) : List Report × Session :=
  let (readings, s) := s.readText text
  let reports := readings.mapIdx fun i r =>
    { number := i + 1, reading := r, column := s.columnOf r,
      current := Edit.currentIndent r.text }
  (reports, s)

/-! ## Keys -/

/-- Why a key does nothing: there is no line of text, the settings rule the key out, its actions
cannot be noted, or it would move too far. -/
inductive KeyFault where
  | notText
  | fault (f : Settings.Fault)
  | unwritable
  | tooWide

/-- The actions of a key, once they have been noted. -/
def noted (actions : List Action) : Except KeyFault (List Action) :=
  match Edit.describe actions with
  | .ok _ => .ok actions
  | .error _ => .error .unwritable

/-- Whether the character before the cursor is comment; the line is read if this is `asked`. -/
def insideIf (s : Session) (asked : Bool) (line : Text) (cursor : Int) (continued : Bool) :
    Bool × Session :=
  if asked then
    let (reading, s) := s.read (some line) continued
    (Edit.insideComment reading (Edit.clamp line cursor), s)
  else (false, s)

def indentLine (s : Session) (line : Option Text) (continued : Bool) :
    Except KeyFault (List Action) × Session :=
  let (column, s) := s.columnFor line continued
  match line with
  | none => (.error .notText, s)
  | some line => (.ok (Edit.indentTo line column), s)

def space (s : Session) (line : Option Text) (cursor : Int) (continued : Bool) :
    Except KeyFault (List Action) × Session :=
  match line with
  | none => (.error .notText, s)
  | some line =>
      let (inside, s) := s.insideIf (Edit.spaceAsks s.settings line cursor) line cursor continued
      (noted (Edit.spaceKey s.settings inside line cursor), s)

def colon (s : Session) (line : Option Text) (cursor : Int) (continued : Bool) :
    Except KeyFault (List Action) × Session :=
  match line with
  | none => (.error .notText, s)
  | some line =>
      let (inside, s) := s.insideIf (Edit.colonAsks line cursor) line cursor continued
      (noted (Edit.colonKey s.settings inside line cursor), s)

def hash (_ : Session) (line : Option Text) (cursor : Int) : Except KeyFault (List Action) :=
  match line with
  | none => .error .notText
  | some line => noted (Edit.hashKey line cursor)

def comment (s : Session) (line : Option Text) (cursor : Int) (previous : Option Reading)
    (continued : Bool) : Except KeyFault (List Action) × Session :=
  match line with
  | none => (.error .notText, s)
  | some line =>
      match Edit.delimiterOf s.convention with
      | .error f => (.error (.fault f), s)
      | .ok delimiter =>
          let (reading, s) := s.read (some line) continued
          (noted (Edit.delimiterKey delimiter s.convention.repeatable reading previous line cursor),
            s)

def newline (s : Session) : Except KeyFault (List Action) :=
  noted (Edit.newlineKey s.settings)

end Session
end AsmColumns
