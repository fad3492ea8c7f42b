import MipsMemory.Error
import MipsMemory.MemoryMap.Fields
import MipsMemory.Yaml.Document
import MipsMemory.Yaml.Scalar.Written

/-!
Memory maps as configuration files: a mapping from keys to a name, addresses and a flag. Unknown
keys are passed over.
-/

namespace MipsMemory.ConfigFile

open Yaml Document

/-- The address under a key, which must be there. -/
def address (d : Document) (fields : List (String × Node)) (key : String) : Reading UInt32 := do
  let value ← required fields key
  return UInt32.ofNat (← d.scalar value (·.unsigned? UInt32.size))

/-- The flag may be left out. -/
def flag (d : Document) (fields : List (String × Node)) : Reading Bool := do
  match ← optional fields MemoryMap.selfModifyingKey with
  | none => return false
  | some value => d.scalar value Scalar.flag?

/-- A map from the fields of a mapping; there must be a name and every address. -/
def memoryMap (d : Document) (root : Node) : Reading MemoryMap := do
  let fields ← d.fields root
  let name ← d.text (← required fields MemoryMap.nameKey)
  let selfModifying ← flag d fields
  MemoryMap.fields.foldlM
    (fun m f => return f.set (← address d fields f.key) m)
    { MemoryMap.standard with name, selfModifying }

/-- The map in a text, if the text is a document that holds one. -/
def parse? (text : String) : Option MemoryMap :=
  match Yaml.Document.read? text with
  | some (.document d) => d.decode? (memoryMap d)
  | _ => none

/-- Reads a map with a parser of files and checks it. -/
def readWith (parse? : String → Option MemoryMap) (text : String) : Except Error MemoryMap :=
  match parse? text with
  | some m => m.check.map fun _ => m
  | none => .error .configParse

/-- Reads a map and checks it. -/
def read (text : String) : Except Error MemoryMap := readWith parse? text

/-- One line for each key, the name first and the flag last. -/
def write (m : MemoryMap) : String :=
  String.ofList <|
    Written.entry MemoryMap.nameKey m.name.toList ++
      MemoryMap.fields.flatMap (fun f => numberLine f.key (f.get m)) ++
      plainLine MemoryMap.selfModifyingKey (if m.selfModifying then "true" else "false").toList
where
  plainLine (key : String) (text : List Char) : List Char :=
    key.toList ++ ':' :: ' ' :: text ++ ['\n']
  numberLine (key : String) (value : UInt32) : List Char :=
    plainLine key (Nat.toDigits 10 value.toNat)

end MipsMemory.ConfigFile
