import AsmColumns.Command.Arguments
import AsmColumns.Comment.Convention
import AsmColumns.Decimal.Integer

/-!
# Requests

What a command line asks for: one of three commands on a file, with the options that override the
settings; or help, the version, or nothing.
-/

namespace AsmColumns
namespace Command

inductive Verb where
  | showLines
  | indent
  | check
deriving DecidableEq, Repr

def Verb.name : Verb → String
  | .showLines => "show"
  | .indent => "indent"
  | .check => "check"

def Verb.ofWord? (word : Text) : Option Verb :=
  [Verb.showLines, .indent, .check].find? fun verb => verb.name.toList == word

structure Request where
  verb : Verb
  path : Text := []
  config : Option Text := none
  style : Option Comment.Style := none
  commentColumn : Option Int := none
  tabStops : Option Text := none
  write : Bool := false
  diff : Bool := false
deriving Repr

/-- What the words of a command line amount to. -/
inductive Invocation where
  | run (request : Request)
  /-- No command: help is shown, and that is no mistake. -/
  | idle (help : String)
  /-- Help was asked for. -/
  | help (line : String)
  | version (line : String)
  | mistake

/-! ## Options -/

inductive Global where
  | help
  | version
  | verbose
deriving DecidableEq, Repr

def globalGrammar : Grammar Global :=
  { spellings := [("-h".toList, .help), ("--help".toList, .help), ("-v".toList, .version),
      ("--version".toList, .version), ("--verbose".toList, .verbose)]
    takesValue := fun _ => false
    greedy := true }

inductive Local where
  | help
  | config
  | style
  | commentColumn
  | tabStops
  | write
  | diff
deriving DecidableEq, Repr

def Local.takesValue : Local → Bool
  | .config | .style | .commentColumn | .tabStops => true
  | .help | .write | .diff => false

def localGrammar (verb : Verb) : Grammar Local :=
  let common := [("-h".toList, Local.help), ("--help".toList, .help),
    ("--config".toList, .config), ("--style".toList, .style),
    ("--comment-column".toList, .commentColumn), ("--tab-stops".toList, .tabStops)]
  let writing := [("--write".toList, Local.write), ("--diff".toList, .diff)]
  { spellings := if verb = .indent then common ++ writing else common
    takesValue := Local.takesValue }

/-! ## Help -/

def usage : String :=
  "usage: asmode [-h] [-v] [--verbose] Command ..."

def versionLine : String :=
  "asmode v0.1.0"

/-- The names of the styles, as a choice. -/
def styleChoice : String :=
  "\x7b" ++ ",".intercalate (Comment.Style.all.map fun style => String.ofList style.name) ++ "\x7d"

def Verb.usage (verb : Verb) : String :=
  "usage: asmode " ++ verb.name ++ " [-h] [--config CONFIG] [--style " ++ styleChoice ++
    "] [--comment-column COMMENT_COLUMN] [--tab-stops TAB_STOPS]" ++
    (if verb = .indent then " [--write] [--diff]" else "") ++ " path"

/-! ## Reading the steps -/

/-- A request as far as it is read: whether it has a path yet, and whether words were left over. -/
structure Draft where
  request : Request
  hasPath : Bool := false
  leftOver : Bool := false

def Draft.finish (draft : Draft) : Invocation :=
  if draft.hasPath && !draft.leftOver then .run draft.request else .mistake

/-- The request after an option with its value; `none` if the value is a mistake. -/
def Request.withValue (request : Request) (value : Text) : Local → Option Request
  | .config => some { request with config := some value }
  | .style =>
      (Comment.Style.all.find? fun style => style.name == value).map fun style =>
        { request with style := some style }
  | .commentColumn =>
      (Decimal.integer? value).map fun column => { request with commentColumn := some column }
  | .tabStops => some { request with tabStops := some value }
  | _ => none

/-- Goes through the steps behind a command. -/
def readLocal (draft : Draft) : List (Step Local) → Invocation
  | [] => draft.finish
  | .fail :: _ => .mistake
  | .extra :: rest => readLocal { draft with leftOver := true } rest
  | .arguments words :: rest =>
      let request := { draft.request with path := words.head?.getD [] }
      readLocal { draft with request, hasPath := true } rest
  | .option .help _ :: _ => .help draft.request.verb.usage
  | .option .write _ :: rest =>
      readLocal { draft with request := { draft.request with write := true } } rest
  | .option .diff _ :: rest =>
      readLocal { draft with request := { draft.request with diff := true } } rest
  | .option which value :: rest =>
      match draft.request.withValue (value.getD []) which with
      | some request => readLocal { draft with request } rest
      | none => .mistake

/-- Goes through the steps before and at a command. -/
def readGlobal (leftOver : Bool) : List (Step Global) → Invocation
  | [] => if leftOver then .mistake else .idle usage
  | .fail :: _ => .mistake
  | .extra :: rest => readGlobal true rest
  | .option .help _ :: _ => .help usage
  | .option .version _ :: _ => .version versionLine
  | .option .verbose _ :: rest => readGlobal leftOver rest
  | .arguments words :: _ =>
      match Verb.ofWord? (words.head?.getD []) with
      | some verb => readLocal { request := { verb }, leftOver } ((localGrammar verb).steps words.tail)
      | none => .mistake

/-- What the words of a command line amount to. -/
def Invocation.ofWords (words : List Text) : Invocation :=
  readGlobal false (globalGrammar.steps words)

end Command
end AsmColumns
