import Hotswap.Command
import Hotswap.Command.Literal
import Hotswap.CoreLibrary
import Hotswap.Engine
import Hotswap.Source

/-!
# What commands report

Each command reads files and ends with a report: the lines it prints, the lines it prints as errors,
and a code for the system. Files are read through a `FileAccess`, so a report is a function of what
the files hold.
-/

namespace Hotswap

/-- What a command prints and how it ends. -/
structure Report where
  /-- What it prints. -/
  output : String := ""
  /-- What it prints as errors. -/
  errors : String := ""
  /-- The code it ends with. -/
  code : UInt8 := 0
  deriving DecidableEq, Repr

/-- Lines of text, each with its end. -/
def textOfLines (lines : List String) : String := String.join (lines.map (· ++ "\n"))

namespace Report

/-- A report of lines. -/
def ofLines (lines : List String) : Report := { output := textOfLines lines }

/-- The report of a failure. -/
def failure (message : String) : Report :=
  { errors := textOfLines ["Error: " ++ message], code := 1 }

/-- The report of words that are not a command. -/
def misuse : Report := { code := 2 }

end Report

namespace Command

/-! ## Listing a patch set -/

/-- A text with spaces after it up to a width. -/
def padRight (width : Nat) (s : String) : String :=
  s ++ String.ofList (List.replicate (width - s.length) ' ')

/-- The line for a method of a patch set. -/
def infoLine (entry : String × Descriptor) : String :=
  let (signature, d) := entry
  "  " ++ padRight 8 (if d.isStatic then "static" else "instance") ++ " " ++ signature ++ " -> " ++
    d.returnType.render ++ "  (" ++ toString d.body.instructions.size ++ " instructions, " ++
    toString d.body.locals.length ++ " locals)"

/-- The report on the methods of a patch set. -/
def infoReport (directory manifest : String) (c : Catalogue) : Report :=
  .ofLines <|
    ["=== Patch Catalogue ===",
      "Directory:        " ++ directory,
      "Manifest:         " ++ manifest,
      "Patched methods:  " ++ toString c.size,
      ""] ++ c.methods.entries.map infoLine

/-! ## Listing a descriptor -/

/-- The line for an instruction. The offset that follows is shown where control can go on. -/
def instructionLine (entry : UInt32 × Instruction) : String :=
  let (offset, i) := entry
  let next := match i.next with
    | some next => if i.opcode.isTerminator then "" else "  # -> " ++ Text.offsetLabel next
    | none => ""
  "    " ++ Text.offsetLabel offset ++ ": " ++ i.render ++ next

/-- The line for the locals of a body, if it has any. -/
def localsLines (types : List TypeName) : List String :=
  if types.isEmpty then []
  else
    let texts := types.zipIdx.map fun (t, n) => "[" ++ toString n ++ "] " ++ t.render
    ["    .locals (" ++ ", ".intercalate texts ++ ")"]

/-- The lines for the problems of a body, if it has any. -/
def problemLines (b : Body) : List String :=
  if b.problems.isEmpty then [] else "" :: b.problems.map fun p => "# " ++ p.message

/-- The report on a descriptor. -/
def listingReport (d : Descriptor) : Report :=
  .ofLines <|
    [".method " ++ (if d.isStatic then "static " else "") ++ d.returnType.render ++ " " ++
        d.name.render,
      "\x7b",
      "    .maxstack " ++ toString d.body.maxStack.toNat] ++
    localsLines d.body.locals ++
    d.body.instructions.entries.map instructionLine ++
    ["\x7d"] ++
    problemLines d.body

/-! ## Checking a patch set -/

/-- The lines for a method whose body has problems. -/
def faultLines (entry : String × Descriptor) : List String :=
  (entry.1 ++ ":") :: entry.2.body.problems.map fun p => "    " ++ p.message

/-- The report on the bodies of a patch set. -/
def verifyReport (c : Catalogue) : Report :=
  let faulty := c.methods.entries.filter fun entry => !entry.2.body.problems.isEmpty
  if faulty.isEmpty then .ofLines [toString c.size ++ " descriptors verified"]
  else
    { Report.failure (toString faulty.length ++ " of " ++ toString c.size ++
        " descriptors have problems") with
      output := textOfLines (faulty.flatMap faultLines) }

/-! ## Running a method -/

/-- Bounds the runs of the command line; no program in use comes near it. -/
def fuel : Nat := 1000000000000000

/-- Runs a method of a patch set on an engine that has only the core library. -/
def runMethod (c : Catalogue) (signature : String) (receiver : Option String)
    (args : List String) : Except Stop Value := do
  let library ← CoreLibrary.module.mapError .failed
  let s ← (Signature.parse signature).mapError fun e => .failed (.format e)
  ((Engine.start c ⟨[library]⟩).invoke fuel s (receiver.map .ofLiteral) (args.map .ofLiteral)).1

/-- The report on a run. Null is not printed. -/
def runReport : Except Stop Value → Report
  | .ok .null => {}
  | .ok v => .ofLines [v.render]
  | .error (.failed e) => .failure e.message
  | .error .outOfFuel => .failure "out of fuel"

/-! ## All commands -/

section Perform

variable {m : Type → Type} [Monad m]

/-- Loads a patch set and reports on it, or on why it cannot be loaded. -/
def withCatalogue (files : FileAccess m) (directory : String) (options : LoadOptions)
    (report : Catalogue → Report) : m Report := do
  match ← (files.load directory options).run with
  | .ok c => return report c
  | .error e => return .failure e.message

/-- Carries a command out. -/
def perform (files : FileAccess m) : Command → m Report
  | .info directory manifest =>
    let manifestName := manifest.getD defaultManifest
    withCatalogue files directory { manifestName } (infoReport directory manifestName)
  | .disassemble path => do
    match ← files.read path with
    | .error fault => return .failure (FormatError.unreadable path fault).message
    | .ok bytes =>
      match Descriptor.parseBytes bytes with
      | .ok d => return listingReport d
      | .error e => return .failure e.message
  | .verify directory manifest =>
    withCatalogue files directory
      { manifestName := manifest.getD defaultManifest, verifyContentKeys := true } verifyReport
  | .run directory signature receiver args =>
    withCatalogue files directory {} fun c => runReport (runMethod c signature receiver args)

/-- Carries the words of the command line out. -/
def respond (files : FileAccess m) (words : List String) : m Report :=
  match parse words with
  | some c => c.perform files
  | none => return .misuse

end Perform

end Command

end Hotswap
