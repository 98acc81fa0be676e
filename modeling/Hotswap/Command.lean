/-!
# Commands

What the command line can ask for, and how it is written. Words after the name of a command are
values by their position, or an option with its value. Two dashes end the options. A command that
takes any number of values at the end reads everything after the first of them as values, dashes
included, so that negative numbers can be written as they are.
-/

namespace Hotswap

/-- A request of the command line. -/
inductive Command where
  /-- Lists the methods of a patch set. -/
  | info (directory : String) (manifest : Option String)
  /-- Prints the instructions of a descriptor. -/
  | disassemble (path : String)
  /-- Checks the content keys and the bodies of a patch set. -/
  | verify (directory : String) (manifest : Option String)
  /-- Runs a method with literal arguments. -/
  | run (directory signature : String) (receiver : Option String) (args : List String)
  deriving DecidableEq, Repr

namespace Command

/-- The words that a command takes. -/
structure Form where
  /-- The name of its option. -/
  option : Option String
  /-- The number of values that it needs. -/
  required : Nat
  /-- Whether any number of values may follow them. -/
  hasTail : Bool

/-- The words of a command, sorted. -/
structure Words where
  /-- The value of the option. -/
  option : Option String := none
  /-- The values by position. -/
  values : List String := []

/-- How the next word is to be read. -/
inductive Mode where
  /-- As an option or a value. -/
  | any
  /-- As the value of an option. -/
  | optionValue
  /-- As a value. -/
  | literal

/-- What a word looks like. -/
inductive Shape where
  /-- Two dashes. -/
  | endOfOptions
  /-- A name after two dashes, perhaps with a value. -/
  | long (name : String) (value : Option String)
  /-- Letters after a dash. -/
  | short (letters : List Char)
  /-- Anything else. -/
  | plain

/-- Splits a name from the value after the first equals sign. -/
def splitValue (word : List Char) : String × Option String :=
  match word.span (· != '=') with
  | (name, []) => (String.ofList name, none)
  | (name, _ :: value) => (String.ofList name, some (String.ofList value))

/-- What a word looks like. -/
def Shape.of (word : String) : Shape :=
  match word.toList with
  | ['-', '-'] => .endOfOptions
  | '-' :: '-' :: rest => .long (splitValue rest).1 (splitValue rest).2
  | '-' :: c :: rest => .short (c :: rest)
  | _ => .plain

namespace Form

/-- Whether the next value may start with a dash. -/
def allowsDash (f : Form) (w : Words) : Bool := f.hasTail && f.required ≤ w.values.length

/-- Whether the values at the end have begun. -/
def inTail (f : Form) (w : Words) : Bool := f.hasTail && f.required < w.values.length

/-- Whether a word that starts with a dash is taken as a value: it must not be an option, and `h`
asks for help. -/
def isDashValue (f : Form) (w : Words) : Shape → Bool
  | .long name _ => f.allowsDash w && some name != f.option && name != "help"
  | .short letters => f.allowsDash w && letters.any (· != 'h')
  | .endOfOptions => false
  | .plain => true

/-- Takes a word as the next value. -/
def addValue (f : Form) (w : Words) (word : String) : Option Words :=
  if f.hasTail || w.values.length < f.required then some { w with values := w.values ++ [word] }
  else none

/-- Takes a word as the value of the option, which can be given once. -/
def setOption (w : Words) (word : String) : Option Words :=
  if w.option.isNone then some { w with option := some word } else none

/-- Sorts the words of a command; none if they do not fit its form. -/
def sort (f : Form) : Mode → Words → List String → Option Words
  | .optionValue, _, [] => none
  | _, w, [] => if f.required ≤ w.values.length then some w else none
  | .literal, w, word :: rest => do f.sort .literal (← f.addValue w word) rest
  | .optionValue, w, word :: rest =>
    if f.isDashValue w (.of word) then do f.sort .any (← setOption w word) rest else none
  | .any, w, word :: rest =>
    if f.inTail w || f.isDashValue w (.of word) then do f.sort .any (← f.addValue w word) rest
    else match Shape.of word with
      | .endOfOptions => f.sort .literal w rest
      | .long name value =>
        if some name = f.option then
          match value with
          | some v => do f.sort .any (← setOption w v) rest
          | none => f.sort .optionValue w rest
        else none
      | _ => none

end Form

/-- A path, which is not empty. -/
def path (word : String) : Option String := if word.isEmpty then none else some word

/-- Reads the words of the command line. -/
def parse : List String → Option Command
  | "info" :: rest => do
    let w ← Form.sort ⟨some "manifest", 1, false⟩ .any {} rest
    return .info (← path (w.values.headD "")) w.option
  | "disasm" :: rest => do
    let w ← Form.sort ⟨none, 1, false⟩ .any {} rest
    return .disassemble (← path (w.values.headD ""))
  | "verify" :: rest => do
    let w ← Form.sort ⟨some "manifest", 1, false⟩ .any {} rest
    return .verify (← path (w.values.headD "")) w.option
  | "run" :: rest => do
    let w ← Form.sort ⟨some "this", 2, true⟩ .any {} rest
    match w.values with
    | directory :: signature :: args => return .run (← path directory) signature w.option args
    | _ => none
  | _ => none

end Command

end Hotswap
