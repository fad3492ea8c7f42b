import MipsMemory.Error
import MipsMemory.Statement
import MipsMemory.Yaml.Document

/-!
Statement lists as files: a sequence of mappings with a directive, operands and a label.
-/

namespace MipsMemory.StatementFile

open Yaml Document

/-- An integer beyond a signed 64-bit word is kept as the nearest double. Nulls, booleans and larger
integers are no operands. -/
def operandOfValue? : Scalar.Value → Option Operand
  | .int n => some (if n.toNat < 1 <<< 63 then .int n else .float (.ofNat n.toNat))
  | .float x => some (.float x)
  | .text cs => some (.text (String.ofList cs))
  | .null | .bool _ | .large => none

/-- Reads an operand. -/
def operand (d : Document) (n : Node) : Reading Operand :=
  d.scalar n fun s => s.value?.bind operandOfValue?

/-- Reads the label of a statement, which may be missing. -/
def label (d : Document) (fields : List (String × Node)) : Reading (Option String) := do
  match ← optional fields "label" with
  | none => return none
  | some value => return (← d.scalar value Scalar.optionalText?).map String.ofList

/-- Reads the operands of a statement; there need not be any. -/
def operands (d : Document) (fields : List (String × Node)) : Reading (List Operand) := do
  match ← optional fields "operands" with
  | none => return []
  | some value => (← d.items value).mapM (operand d)

/-- Reads a statement. -/
def statement (d : Document) (n : Node) : Reading Statement := do
  let fields ← d.fields n
  let directive ← d.text (← required fields "directive")
  return ⟨← label d fields, directive, ← operands d fields⟩

/-- Reads the statements of a file. -/
def statements (d : Document) (root : Node) : Reading (List Statement) := do
  (← d.items root).mapM (statement d)

/-- Reads a list; an empty file is an empty one. -/
def read (text : String) : Except Error (List Statement) :=
  match Yaml.Document.read? text with
  | some .nothing => .ok []
  | some (.document d) =>
    match d.decode? (statements d) with
    | some statements => .ok statements
    | none => .error .configParse
  | none => .error .configParse

end MipsMemory.StatementFile
