import MipsMemory.CommandLine.Arguments
import MipsMemory.CommandLine.Files
import MipsMemory.ConfigFile

/-!
Which memory map a program works with: a file's if one is named, else a built-in one.
-/

namespace MipsMemory.CommandLine

/-- How a memory map is asked for: the path of a configuration, or else the name of a preset. -/
structure MapChoice where
  path : Option String
  preset : String
  deriving DecidableEq, Repr

namespace MapChoice

/-- Names a configuration file. -/
def configFlag : Flag := ⟨'c', "config"⟩

/-- Names a built-in map. -/
def presetFlag : Flag := ⟨'p', "preset"⟩

/-- The flags by which a map is chosen. -/
def flags : List Flag := [configFlag, presetFlag]

/-- The choice the arguments make; unless they say otherwise it is the default preset. -/
def ofArguments (args : Arguments) : MapChoice :=
  ⟨args.value? configFlag, (args.value? presetFlag).getD "default"⟩

/-- The map, or the message to show. -/
def find (c : MapChoice) (files : Files) : Except String MemoryMap :=
  match c.path with
  | some path =>
    match files path with
    | some text => (ConfigFile.read text).mapError Error.message
    | none => .error (Error.configRead path).message
  | none =>
    match MemoryMap.preset? c.preset with
    | some m => .ok m
    | none => .error ("Unknown memory configuration: " ++ Error.quoted c.preset)

end MapChoice

end MipsMemory.CommandLine
