import AsmColumns.Comment.Convention
import AsmColumns.TabStops
import AsmColumns.Value

/-!
# Settings

The settings of an editing session: the comment style, the tab stops and the width between the
stops behind them, the comment column, and three switches for the keys.  Options come in by name
with values of any shape.  They are written into a draft, which has a value for every option, and
the draft is checked as a whole: the first option that is found wrong, in a fixed order, is the
one reported, and then nothing is changed.
-/

namespace AsmColumns

open Comment (Style)

structure Settings where
  style : Style := .lineSemicolon
  colonAfterLabel : Bool := true
  tabAfterOperation : Bool := true
  newlineAfterLabel : Bool := false
  tabStops : List Int := [8, 16, 24, 32, 40, 48, 56, 64, 72]
  tabWidth : Int := 8
  commentColumn : Int := 32
deriving DecidableEq, Repr, Inhabited

namespace Settings

/-- The stops and the width together. -/
def stops (s : Settings) : TabStops :=
  ⟨s.tabStops, s.tabWidth⟩

/-- What checking a draft ensures. -/
structure Valid (s : Settings) : Prop where
  stops_nonneg : ∀ stop ∈ s.tabStops, 0 ≤ stop
  stops_sorted : s.tabStops.Pairwise (· ≤ ·)
  width_pos : 1 ≤ s.tabWidth
  column_nonneg : 0 ≤ s.commentColumn

/-! ## Options -/

inductive Key where
  | commentStyle
  | colonAfterLabel
  | tabAfterOperation
  | newlineAfterLabel
  | tabStops
  | tabWidth
  | commentColumn
deriving DecidableEq, Repr

namespace Key

def all : List Key :=
  [commentStyle, colonAfterLabel, tabAfterOperation, newlineAfterLabel, tabStops, tabWidth,
    commentColumn]

def name : Key → Text
  | commentStyle => "commentStyle".toList
  | colonAfterLabel => "colonAfterLabel".toList
  | tabAfterOperation => "tabAfterOperation".toList
  | newlineAfterLabel => "newlineAfterLabel".toList
  | tabStops => "tabStops".toList
  | tabWidth => "tabWidth".toList
  | commentColumn => "commentColumn".toList

def ofValue? : Value → Option Key
  | .text t => all.find? fun key => key.name == t
  | _ => none

end Key

/-- A refused option, with the value that was supplied and the reason. -/
structure Fault where
  option : Text
  value : Value
  reason : String := ""

def Fault.message (f : Fault) : String :=
  let refusal := "Invalid value for '" ++ String.ofList f.option ++ "': " ++
    String.ofList f.value.write
  if f.reason.isEmpty then refusal else refusal ++ " (" ++ f.reason ++ ")"

/-- Why a change of options fails: one of them is wrong, or a tab stop lies at infinity, or a value
that is to be quoted or noted cannot be written out. -/
inductive Rejection where
  | fault (f : Fault)
  | infiniteStop
  | unwritable

/-- The rejection of a wrong option, which quotes its value. -/
def Rejection.refusal (option : Text) (value : Value) (reason : String) : Rejection :=
  if value.isWritable then .fault ⟨option, value, reason⟩ else .unwritable

/-- A value for every option. -/
def Draft := Key → Value

/-- The options that settings consist of. -/
def draft (s : Settings) : Draft
  | .commentStyle => .text s.style.name
  | .colonAfterLabel => .bool s.colonAfterLabel
  | .tabAfterOperation => .bool s.tabAfterOperation
  | .newlineAfterLabel => .bool s.newlineAfterLabel
  | .tabStops => .list (s.tabStops.map .int)
  | .tabWidth => .int s.tabWidth
  | .commentColumn => .int s.commentColumn

/-- The options by name. -/
def toMapping (s : Settings) : List (Value × Value) :=
  Key.all.map fun key => (.text key.name, s.draft key)

/-- Whether all the options can be written out. -/
def isWritable (s : Settings) : Bool :=
  (Value.table s.toMapping).isWritable

namespace Draft

def set (d : Draft) (key : Key) (value : Value) : Draft :=
  fun other => if other = key then value else d other

def refuse {α : Type} (d : Draft) (key : Key) (reason : String) : Except Rejection α :=
  .error (.refusal key.name (d key) reason)

def checkStyle (d : Draft) : Except Rejection Style :=
  match Style.ofName? (d .commentStyle).asName with
  | some style => .ok style
  | none => d.refuse .commentStyle "unknown comment style"

/-- The integers of a list of values; the first value that is none decides the refusal. -/
def checkItems (d : Draft) : List Value → Except Rejection (List Int)
  | [] => .ok []
  | item :: rest =>
      match item.toInteger with
      | .error .infinite => .error .infiniteStop
      | .error .malformed => d.refuse .tabStops "expected a list of columns"
      | .ok stop =>
          match checkItems d rest with
          | .error e => .error e
          | .ok stops => .ok (stop :: stops)

/-- Whether no column is less than the one before it. -/
def nonDecreasing : List Int → Bool
  | a :: b :: rest => a ≤ b && nonDecreasing (b :: rest)
  | _ => true

def checkStops (d : Draft) : Except Rejection (List Int) :=
  match (d .tabStops).items? with
  | none => d.refuse .tabStops "expected a list of columns"
  | some items =>
      match d.checkItems items with
      | .error e => .error e
      | .ok stops =>
          if stops.any (· < 0) then d.refuse .tabStops "columns must be non-negative"
          else if nonDecreasing stops then .ok stops
          else d.refuse .tabStops "columns must be non-decreasing"

def checkInteger (d : Draft) (key : Key) : Except Rejection Int :=
  match d key with
  | .int n => .ok n
  | _ => d.refuse key "expected an integer"

def checkSwitch (d : Draft) (key : Key) : Except Rejection Bool :=
  match d key with
  | .bool b => .ok b
  | _ => d.refuse key "expected true or false"

/-- The settings of a draft, or its first fault. -/
def check (d : Draft) : Except Rejection Settings := do
  let style ← d.checkStyle
  let tabStops ← d.checkStops
  let tabWidth ← d.checkInteger .tabWidth
  let commentColumn ← d.checkInteger .commentColumn
  if tabWidth < 1 then
    d.refuse .tabWidth "must be at least 1"
  if commentColumn < 0 then
    d.refuse .commentColumn "must be non-negative"
  let colonAfterLabel ← d.checkSwitch .colonAfterLabel
  let tabAfterOperation ← d.checkSwitch .tabAfterOperation
  let newlineAfterLabel ← d.checkSwitch .newlineAfterLabel
  return { style, colonAfterLabel, tabAfterOperation, newlineAfterLabel, tabStops, tabWidth,
           commentColumn }

/-- Writes options into a draft; the first name that is none is refused. -/
def setAll (d : Draft) : List (Value × Value) → Except Rejection Draft
  | [] => .ok d
  | (name, value) :: rest =>
      match Key.ofValue? name with
      | some key => setAll (d.set key value) rest
      | none =>
          .error (if name.isWritable then .refusal name.asName value "unrecognised option"
            else .unwritable)

end Draft

/-- The settings after a change of options, all of which are accepted or none. -/
def update (s : Settings) (options : List (Value × Value)) : Except Rejection Settings :=
  match s.draft.setAll (Value.collapse options) with
  | .error e => .error e
  | .ok d => d.check

/-- Settings from options alone. -/
def ofMapping (options : List (Value × Value)) : Except Rejection Settings :=
  update {} options

end Settings
end AsmColumns
