import AsmColumns.Span

/-!
# Readings of a line

A reading says what kind of line it is and where its parts stand.  The kind is one of six; the
parts are spans of the line.  `endsOpen` tells the next line whether it starts inside a comment,
and `degraded` marks the reading of a line that could not be read.
-/

namespace AsmColumns
namespace Line

inductive Kind where
  | label
  | directive
  | operation
  | comment
  | blank
  | unknown
deriving DecidableEq, Repr, Inhabited

namespace Kind

def all : List Kind :=
  [label, directive, operation, comment, blank, unknown]

def name : Kind → String
  | label => "label"
  | directive => "directive"
  | operation => "operation"
  | comment => "comment"
  | blank => "blank"
  | unknown => "unknown"

end Kind

/-- The parts of a line that are not comment. -/
inductive Part where
  | label
  | condition
  | directive
  | operation
  | operand
deriving DecidableEq, Repr

/-- What a single character of a line belongs to. -/
inductive Category where
  | comment
  | variableName
  | code (part : Part)
deriving DecidableEq, Repr

structure Reading where
  kind : Kind
  text : Text := []
  label : Option Span := none
  directive : Option Span := none
  operation : Option Span := none
  operand : Option Span := none
  condition : Option Span := none
  comments : List Span := []
  vars : List Span := []
  isDoc : Bool := false
  depth : Int := 0
  endsOpen : Bool := false
  degraded : Bool := false
deriving DecidableEq, Repr, Inhabited

namespace Reading

/-- The label without its colons. -/
def labelName? (r : Reading) : Option Text :=
  r.label.map fun span => (span.of r.text).dropTail (· == ':')

/-- Puts a part behind all parts that start no later. -/
def insertPart (entry : Part × Span) : List (Part × Span) → List (Part × Span)
  | [] => [entry]
  | other :: rest =>
      if entry.2.start < other.2.start then entry :: other :: rest
      else other :: insertPart entry rest

/-- The parts of the line in the order of their starts. -/
def code (r : Reading) : List (Part × Span) :=
  let tagged := [(Part.label, r.label), (.condition, r.condition), (.directive, r.directive),
    (.operation, r.operation), (.operand, r.operand)]
  let present := tagged.filterMap fun entry => entry.2.map (entry.1, ·)
  present.foldl (fun sorted entry => insertPart entry sorted) []

def commentStart? (r : Reading) : Option Nat :=
  r.comments.head?.map (·.start)

def isCommentAt (r : Reading) (offset : Int) : Bool :=
  r.comments.any (·.containsAt offset)

/-- Comment text first, then a variable, then the leftmost part that covers the offset. -/
def categoryAt? (r : Reading) (offset : Int) : Option Category :=
  if r.isCommentAt offset then some .comment
  else if r.vars.any (·.containsAt offset) then some .variableName
  else (r.code.find? (·.2.containsAt offset)).map (.code ·.1)

/-- The reading of a line that cannot be read; an open comment stays open behind it. -/
def unreadable (text : Text) (continued : Bool) : Reading :=
  { kind := .unknown, text, endsOpen := continued, degraded := true }

end Reading
end Line
end AsmColumns
