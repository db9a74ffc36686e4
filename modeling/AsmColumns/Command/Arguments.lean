import AsmColumns.Text.DecimalDigit

/-!
# Words of a command line

How the words of a command line are told apart.  A word that starts with a dash is an option if it
is spelled like one; a long option may be shortened as far as it stays unambiguous.  An option's
value is the next word, or follows an equals sign.  Short options without values can be run
together.  A word of two dashes makes everything behind it an argument, and a negative number is an
argument too.

The outcome is the list of steps in the order in which they take effect, because an option that
ends the program does so before any mistake behind it is noticed.
-/

namespace AsmColumns
namespace Command

/-- The options of a command: every spelling, and which of them take a value. -/
structure Grammar (α : Type) where
  spellings : List (Text × α)
  takesValue : α → Bool
  /-- Whether the first argument takes all words behind it along. -/
  greedy : Bool := false

/-- What is joined to an option in the same word. -/
structure Joined where
  byEquals : Bool
  text : Text
deriving DecidableEq, Repr

inductive Word (α : Type) where
  | argument
  | terminator
  | unknown
  | option (name : Text) (which : α) (joined : Option Joined)

inductive Step (α : Type) where
  | option (which : α) (value : Option Text)
  | arguments (words : List Text)
  /-- A word that nothing takes. -/
  | extra
  /-- A mistake that ends the reading. -/
  | fail

namespace Grammar

variable {α : Type}

def find? (g : Grammar α) (name : Text) : Option α :=
  (g.spellings.find? (·.1 == name)).map (·.2)

/-- A word cut at its first equals sign. -/
def cutAtEquals (word : Text) : Text × Option Text :=
  match word.dropWhile (· != '=') with
  | [] => (word, none)
  | _ :: value => (word.takeWhile (· != '='), some value)

/-- The options that a word may be short for. -/
def candidates (g : Grammar α) (word : Text) : List (Word α) :=
  if ['-', '-'].isPrefixOf word then
    let (name, value?) := cutAtEquals word
    g.spellings.filterMap fun entry =>
      if name.isPrefixOf entry.1 then some (.option entry.1 entry.2 (value?.map (⟨true, ·⟩)))
      else none
  else
    g.spellings.filterMap fun entry =>
      if entry.1 == word.take 2 then some (.option entry.1 entry.2 (some ⟨false, word.drop 2⟩))
      else if word.isPrefixOf entry.1 then some (.option entry.1 entry.2 none)
      else none

/-- Whether a word is a dash and a number, with or without a point.  One newline may stand behind
it. -/
def isNegativeNumber (word : Text) : Bool :=
  let isDigit (c : Char) : Bool := (Text.digitValue? c).isSome
  let word := if word.getLast? = some '\n' then word.dropLast else word
  match word with
  | '-' :: digits =>
      match digits.dropWhile isDigit with
      | [] => !digits.isEmpty
      | '.' :: part => !part.isEmpty && part.all isDigit
      | _ => false
  | _ => false

/-- What a word is; `none` if it is short for more than one option. -/
def classify (g : Grammar α) (word : Text) : Option (Word α) :=
  if word.head? != some '-' then some .argument
  else
    match g.find? word with
    | some which => some (.option word which none)
    | none =>
        if word.length == 1 then some .argument
        else
          let (name, value?) := cutAtEquals word
          match value?, g.find? name with
          | some value, some which => some (.option name which (some ⟨true, value⟩))
          | _, _ =>
              match g.candidates word with
              | [found] => some found
              | _ :: _ :: _ => none
              | [] =>
                  if isNegativeNumber word || word.contains ' ' then some .argument
                  else some .unknown

/-- The words of a command line with what they are. -/
def classifyAll (g : Grammar α) : List Text → Option (List (Text × Word α))
  | [] => some []
  | word :: rest =>
      if word == ['-', '-'] then
        some ((word, .terminator) :: rest.map (·, .argument))
      else
        match g.classify word, classifyAll g rest with
        | some kind, some later => some ((word, kind) :: later)
        | _, _ => none

/-- The steps of options run together in one word, and whether a value is still to come. -/
structure Taken (α : Type) where
  steps : List (Step α)
  needsValue : Option α := none

/-- Takes an option apart from what is joined to it. -/
def take (g : Grammar α) (fuel : Nat) (name : Text) (which : α) (joined : Option Joined) :
    Option (Taken α) :=
  match fuel with
  | 0 => none
  | fuel + 1 =>
      match joined with
      | none =>
          if g.takesValue which then some ⟨[], some which⟩
          else some ⟨[.option which none], none⟩
      | some ⟨byEquals, text⟩ =>
          if g.takesValue which then some ⟨[.option which (some text)], none⟩
          else if ['-', '-'].isPrefixOf name || byEquals then none
          else
            match text with
            | [] => none
            | '-' :: _ => none
            | c :: rest =>
                match g.find? ['-', c] with
                | none => some ⟨[.option which none, .extra], none⟩
                | some next =>
                    let joined :=
                      match rest with
                      | [] => none
                      | '=' :: value => some ⟨true, value⟩
                      | rest => some ⟨false, rest⟩
                    (take g fuel ['-', c] next joined).map fun taken =>
                      { taken with steps := .option which none :: taken.steps }

/-- The first argument with the terminators around it, and the words behind it. -/
def argument? (g : Grammar α) (words : List (Text × Word α)) :
    Option (List Text × List (Text × Word α)) :=
  let isTerminator (entry : Text × Word α) : Bool :=
    match entry.2 with
    | .terminator => true
    | _ => false
  match words.dropWhile isTerminator with
  | (word, .argument) :: rest =>
      if g.greedy then some (words.map (·.1), [])
      else some ([word], rest.dropWhile isTerminator)
  | _ => none

def isOption (entry : Text × Word α) : Bool :=
  match entry.2 with
  | .option .. | .unknown => true
  | _ => false

/-- The steps of the words from left to right; `pending` while the argument is still to come. -/
def walk (g : Grammar α) (pending : Bool) (fuel : Nat) (words : List (Text × Word α)) :
    List (Step α) :=
  match fuel with
  | 0 => []
  | fuel + 1 =>
      match words with
      | [] => []
      | (_, .unknown) :: rest => .extra :: walk g pending fuel rest
      | (word, .option name which joined) :: rest =>
          match g.take (word.length + 1) name which joined, rest with
          | none, _ => [.fail]
          | some ⟨steps, none⟩, _ => steps ++ walk g pending fuel rest
          | some ⟨steps, some last⟩, (value, .argument) :: rest =>
              steps ++ .option last (some value) :: walk g pending fuel rest
          | some _, _ => [.fail]
      | _ =>
          match if pending then g.argument? words else none with
          | some (taken, rest) => .arguments taken :: walk g false fuel rest
          | none => .extra :: walk g pending fuel (words.dropWhile (!isOption ·))

/-- The steps of a command line. -/
def steps (g : Grammar α) (words : List Text) : List (Step α) :=
  match g.classifyAll words with
  | none => [.fail]
  | some words => g.walk true (words.length + 1) words

end Grammar
end Command
end AsmColumns
