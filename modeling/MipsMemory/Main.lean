import MipsMemory.CommandLine

/-!
The command line: the name of a program, then its arguments.
-/

open MipsMemory CommandLine

/-- A file's text, if it can be read. -/
def readText (path : String) : IO (Option (String × String)) := do
  try return some (path, ← IO.FS.readFile path)
  catch _ => return none

/-- Reads the files a program may ask for and runs it on them. -/
def runProgram (program : String) (args : List String) : IO Output := do
  let paths := (Command.parse? program args).elim [] Command.paths
  let found ← paths.filterMapM readText
  return CommandLine.run program (found.lookup ·) args

/-- Runs the program that the first argument names on the others. -/
def main : List String → IO UInt32
  | program :: args => do
    let output ← runProgram program args
    IO.print output.text
    return UInt32.ofNat output.exit
  | [] => return 2
