import AsmColumns.Directory
import AsmColumns.Settings.Basic

/-!
# Settings files

Settings from a file in the directory.  An empty file gives the settings that hold without one;
any other file is a mapping of options.  How a document is written in a file is left to the reader
of documents, which may be any function.
-/

namespace AsmColumns
namespace Settings

/-- Why no settings come out of a file. -/
inductive LoadFault where
  /-- Options were refused, or the file itself. -/
  | rejected (r : Rejection)
  /-- The file is malformed. -/
  | malformed (path : Directory.Path)
  /-- The keys of the file cannot be put in order. -/
  | mixedKeys
  /-- The file cannot be opened. -/
  | unreadable (f : Directory.Fault)
  /-- The bytes of the file are no text. -/
  | notText
  /-- The reader gave up on the text. -/
  | brokenOff

/-- The name under which a settings file is refused. -/
def fileOption : Text := "config".toList

def refuseFile (path : Directory.Path) (reason : String) : LoadFault :=
  .rejected (.fault ⟨fileOption, .text path.text, reason⟩)

/-- Kinds of keys between which there is no order. -/
inductive KeyClass where
  | number
  | text
  | other
deriving DecidableEq

def keyClass : Value → KeyClass
  | .bool _ | .int _ | .float _ => .number
  | .text _ => .text
  | _ => .other

/-- Whether the keys of a mapping can be put in order. -/
def areOrdered : List Value → Bool
  | [] => true
  | [_] => true
  | key :: rest => keyClass key != .other && rest.all fun other => keyClass other == keyClass key

/-- The settings of the document in a file.  The keys are put in order and noted first. -/
def ofDocument (path : Directory.Path) : Value → Except LoadFault Settings
  | .null => .ok {}
  | .table entries =>
      let keys := entries.map (·.1)
      if !areOrdered keys then .error .mixedKeys
      else if !(Value.list keys).isWritable then .error (.rejected .unwritable)
      else (ofMapping entries).mapError .rejected
  | _ => .error (refuseFile path "top level must be a mapping")

/-- The settings in the file at a path. -/
def load (document : Text → Except Value.ReadFault Value) (dir : Directory)
    (path : Directory.Path) : Except LoadFault Settings :=
  match dir.read path with
  | .error (.notFound _) => .error (refuseFile path "file not found")
  | .error f => .error (.unreadable f)
  | .ok bytes =>
      match Directory.decode? bytes with
      | none => .error .notText
      | some text =>
          match document text with
          | .error .malformed => .error (.malformed path)
          | .error .brokenOff => .error .brokenOff
          | .ok value => ofDocument path value

end Settings
end AsmColumns
