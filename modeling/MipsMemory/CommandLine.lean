import MipsMemory.CommandLine.Assembler
import MipsMemory.CommandLine.Probe

/-!
The two programs: what their arguments ask for, which files that takes, and what they answer.
-/

namespace MipsMemory.CommandLine

/-- One of the things the two programs can be asked for. -/
inductive Command where
  | directives (typed : Option String)
  | layout (choice : MapChoice) (file : String)
  | probe (choice : MapChoice) (request : Probe.Request)
  deriving DecidableEq, Repr

namespace Command

/-- Reads the arguments of the listing: nothing, or what the tokens must start with. -/
def directives? (args : List String) : Option Command := do
  match (← Arguments.parse? [] args).operands with
  | [] => return .directives none
  | [typed] => return .directives (some typed)
  | _ => none

/-- Reads the arguments of a layout; without a file name it is that of `main.yaml`. -/
def layout? (args : List String) : Option Command := do
  let parsed ← Arguments.parse? MapChoice.flags args
  match parsed.operands with
  | [] => return .layout (.ofArguments parsed) "main.yaml"
  | [file] => return .layout (.ofArguments parsed) file
  | _ => none

/-- Reads the arguments of a probe. -/
def probe? (args : List String) : Option Command := do
  let parsed ← Arguments.parse? (MapChoice.flags ++ [Probe.kindFlag, Probe.widthFlag]) args
  return .probe (.ofArguments parsed) (← Probe.request? parsed)

/-- What a program's arguments ask for, if they make sense. -/
def parse? (program : String) (args : List String) : Option Command :=
  match program, args with
  | "mips-asm", "directives" :: args => directives? args
  | "mips-asm", "layout" :: args => layout? args
  | "mips-emu", args => probe? args
  | _, _ => none

/-- The files a command may ask for. -/
def paths : Command → List String
  | directives _ => []
  | layout choice file => choice.path.toList ++ [file]
  | probe choice _ => choice.path.toList

/-- What a command shows, given the files there are. -/
def run (files : Files) : Command → Output
  | directives typed => Assembler.directives typed
  | layout choice file => Assembler.layout files choice file
  | probe choice request => Probe.probe files choice request

end Command

/-- Runs a program; arguments that make no sense end it with nothing shown. -/
def run (program : String) (files : Files) (args : List String) : Output :=
  match Command.parse? program args with
  | some command => command.run files
  | none => ⟨2, ""⟩

end MipsMemory.CommandLine
