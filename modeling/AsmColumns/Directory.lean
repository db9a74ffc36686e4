import AsmColumns.Text.Quoted

/-!
# A directory of files

The files that the command line works on, as a value: entries by their paths from the current
directory.  An entry is a file with its bytes, a folder, or a link that leads nowhere.  Paths are
taken apart at their slashes; reading and writing fail as the operating system would have them
fail.
-/

namespace AsmColumns

inductive Directory.Entry where
  | file (bytes : ByteArray)
  | folder
  | link (target : Text)

structure Directory where
  entries : List (Text × Directory.Entry) := []

namespace Directory

/-! ## Paths -/

/-- A path without empty parts and without parts that stay where they are. -/
structure Path where
  absolute : Bool := false
  parts : List Text := []
deriving DecidableEq, Repr

/-- The pieces of a text between slashes. -/
def splitSlashes : Text → List Text
  | [] => [[]]
  | c :: rest =>
      if c == '/' then [] :: splitSlashes rest
      else
        match splitSlashes rest with
        | [] => [[c]]
        | piece :: later => (c :: piece) :: later

def Path.ofText (text : Text) : Path :=
  { absolute := text.head? == some '/'
    parts := (splitSlashes text).filter fun part => !part.isEmpty && part != ['.'] }

/-- The parts with slashes between them. -/
def joinSlashes : List Text → Text
  | [] => []
  | [part] => part
  | part :: later => part ++ '/' :: joinSlashes later

/-- The written form of a path; the current directory is a dot. -/
def Path.text (path : Path) : Text :=
  if path.absolute then '/' :: joinSlashes path.parts
  else if path.parts.isEmpty then ['.']
  else joinSlashes path.parts

/-- The last part of a path. -/
def Path.name (path : Path) : Text :=
  path.parts.getLast?.getD []

/-- The path with an ending added to its last part. -/
def Path.withEnding (path : Path) (ending : Text) : Path :=
  match path.parts.getLast? with
  | some last => { path with parts := path.parts.dropLast ++ [last ++ ending] }
  | none => path

/-! ## Reading and writing -/

/-- Why a path cannot be read or written. -/
inductive Fault where
  /-- No path that the operating system knows has a null character in it. -/
  | nullCharacter
  | notFound (path : Path)
  | notDirectory (path : Path)
  | isDirectory (path : Path)
deriving DecidableEq, Repr

def Fault.message (fault : Fault) : String :=
  match fault with
  | .nullCharacter => "embedded null byte"
  | .notFound path => "[Errno 2] No such file or directory: " ++ String.ofList path.text.quoted
  | .notDirectory path => "[Errno 20] Not a directory: " ++ String.ofList path.text.quoted
  | .isDirectory path => "[Errno 21] Is a directory: " ++ String.ofList path.text.quoted

def entry? (dir : Directory) (name : Text) : Option Entry :=
  (dir.entries.find? (·.1 == name)).map (·.2)

/-- Puts an entry in place of the one of that name, or behind all others. -/
def put (dir : Directory) (name : Text) (entry : Entry) : Directory :=
  if dir.entries.any (·.1 == name) then
    ⟨dir.entries.map fun old => if old.1 == name then (name, entry) else old⟩
  else ⟨dir.entries ++ [(name, entry)]⟩

def erase (dir : Directory) (name : Text) : Directory :=
  ⟨dir.entries.filter (·.1 != name)⟩

/-- Whether a path text names a folder. -/
def isFolder (dir : Directory) (name : Text) : Bool :=
  match dir.entry? name with
  | some .folder => true
  | _ => false

/-- The parts of a path with the ways back taken, as far as they lead out of folders. -/
def collapseFrom (dir : Directory) (done : List Text) : List Text → List Text
  | [] => done
  | part :: rest =>
      if part == ['.', '.'] && dir.isFolder (joinSlashes done) then
        dir.collapseFrom done.dropLast rest
      else dir.collapseFrom (done ++ [part]) rest

/-- The path that a path comes down to. -/
def resolve (dir : Directory) (path : Path) : Path :=
  { path with parts := dir.collapseFrom [] path.parts }

/-- The first fault among the folders that a path goes through. -/
def parentFault? (dir : Directory) (path resolved : Path) : Option Fault :=
  (List.range (resolved.parts.length - 1)).findSome? fun n =>
    let parent : Path := { resolved with parts := resolved.parts.take (n + 1) }
    match dir.entry? parent.text with
    | some .folder => none
    | some (.file _) => some (.notDirectory path)
    | _ => some (.notFound path)

/-- The name of the entry that a path leads to, whether it is there or not. -/
def locate (dir : Directory) (path : Path) : Except Fault Text :=
  let resolved := dir.resolve path
  if path.text.contains '\x00' then .error .nullCharacter
  else if resolved.parts.isEmpty || resolved.parts.getLast? == some ['.', '.'] then
    .error (.isDirectory path)
  else
    match dir.parentFault? path resolved with
    | some f => .error f
    | none => .ok resolved.text

/-- The bytes of the file at a path. -/
def read (dir : Directory) (path : Path) : Except Fault ByteArray :=
  match dir.locate path with
  | .error f => .error f
  | .ok name =>
      match dir.entry? name with
      | some (.file bytes) => .ok bytes
      | some .folder => .error (.isDirectory path)
      | _ => .error (.notFound path)

/-- Writes a file, in place of the one that is there. -/
def write (dir : Directory) (path : Path) (bytes : ByteArray) : Except Fault Directory :=
  match dir.locate path with
  | .error f => .error f
  | .ok name =>
      match dir.entry? name with
      | some .folder => .error (.isDirectory path)
      | some (.link _) => .error (.notFound path)
      | _ => .ok (dir.put name (.file bytes))

/-- Moves a file to another path, in place of what is there. -/
def move (dir : Directory) (source target : Path) : Except Fault Directory :=
  match dir.locate source, dir.locate target with
  | .ok old, .ok new =>
      match dir.entry? old with
      | some entry => .ok ((dir.erase old).put new entry)
      | none => .error (.notFound source)
  | .error f, _ => .error f
  | _, .error f => .error f

/-! ## Text files -/

/-- Line ends of all kinds become newlines. -/
def universalNewlines : Text → Text
  | [] => []
  | '\r' :: '\n' :: rest => '\n' :: universalNewlines rest
  | '\r' :: rest => '\n' :: universalNewlines rest
  | c :: rest => c :: universalNewlines rest

/-- The text of a file, if its bytes are one. -/
def decode? (bytes : ByteArray) : Option Text :=
  (String.fromUTF8? bytes).map fun s => universalNewlines s.toList

/-- The text without a byte order mark at its start. -/
def dropMark (text : Text) : Text :=
  match text with
  | c :: rest => if c.toNat == 0xFEFF then rest else text
  | [] => []

/-- The bytes of a byte order mark. -/
def markBytes : List UInt8 := [0xEF, 0xBB, 0xBF]

/-- The text of a file that may start with a byte order mark.  One that ends inside the mark has
no text. -/
def decodeMarked? (bytes : ByteArray) : Option Text :=
  if bytes.size < markBytes.length && bytes.toList.isPrefixOf markBytes then some []
  else (decode? bytes).map dropMark

def encode (text : Text) : ByteArray :=
  (String.ofList text).toUTF8

end Directory
end AsmColumns
