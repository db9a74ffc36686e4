import AsmColumns.Line.Read
import Std.Data.HashMap

/-!
# A reader with a memory

Lines are read again and again while a buffer is edited, so a reader remembers what it has read.
Its memory is keyed by all that a reading depends on, the line, whether it is entered inside a
comment, and the convention, so a remembered reading is never out of date.  Unreadable lines are
not remembered, and a full memory is emptied before the next reading goes in.
-/

namespace AsmColumns
namespace Line

open Comment (Convention)

/-- All that the reading of a line depends on. -/
structure Reader.Key where
  text : Text
  continued : Bool
  convention : Convention
deriving DecidableEq, Hashable

structure Reader where
  convention : Convention := default
  memory : Std.HashMap Reader.Key Reading := ∅

namespace Reader

/-- The number of readings that a memory holds. -/
def capacity : Nat := 4096

/-- Remembers a reading, in an emptied memory if this one is full. -/
def remember (reader : Reader) (key : Key) (reading : Reading) : Reader :=
  let memory := if capacity ≤ reader.memory.size then ∅ else reader.memory
  { reader with memory := memory.insert key reading }

/-- Reads one line, under the reader's convention unless another one is given. -/
def read (reader : Reader) (line : Option Text) (continued : Bool)
    (convention? : Option Convention) : Reading × Reader :=
  let conv := convention?.getD reader.convention
  match line with
  | none => (Line.read conv continued none, reader)
  | some text =>
      let key : Key := ⟨text, continued, conv⟩
      match reader.memory[key]? with
      | some reading => (reading, reader)
      | none =>
          let reading := Line.read conv continued (some text)
          (reading, if reading.degraded then reader else reader.remember key reading)

/-- Reads consecutive lines; each is entered inside a comment if the one above leaves one open. -/
def readLines (reader : Reader) (lines : List (Option Text)) (continued : Bool)
    (convention? : Option Convention) : List Reading × Reader :=
  match lines with
  | [] => ([], reader)
  | line :: rest =>
      let (reading, reader) := reader.read line continued convention?
      let (readings, reader) := reader.readLines rest reading.endsOpen convention?
      (reading :: readings, reader)

end Reader

/-- The readings of consecutive lines, without a memory. -/
def readLines (conv : Convention) (continued : Bool) : List (Option Text) → List Reading
  | [] => []
  | line :: rest =>
      let reading := read conv continued line
      reading :: readLines conv reading.endsOpen rest

end Line
end AsmColumns
