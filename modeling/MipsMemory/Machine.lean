import MipsMemory.Memory
import MipsMemory.RegisterFile

/-!
Registers and memory together: loads and stores through a base register and a displacement. A failed
operation changes neither.
-/

namespace MipsMemory

/-- A machine is its registers and its memory. -/
structure Machine where
  registers : RegisterFile
  memory : Memory

namespace Machine

/-- Registers and memory as a map sets them up, nothing stored yet. -/
def fresh (m : MemoryMap) : Machine := ⟨.fresh m, .fresh m⟩

/-- A refused access as an error of the whole machine. -/
def checked {α : Type} (access : Except AddressError α) : Except Error α :=
  access.mapError Error.address

/-- The base register's value moved by a signed displacement, modulo the address space. -/
def effectiveAddress (m : Machine) (base : Nat) (offset : Int16) : Except Error UInt32 :=
  (m.registers.read base).map (· + offset.toInt32.toUInt32)

/-- A loaded number as a register holds it: bytes and halfwords keep their sign, of a doubleword the
low word remains. -/
def extended (width : Width) (raw : UInt64) : UInt32 :=
  match width with
  | .byte => raw.toUInt8.toInt8.toInt32.toUInt32
  | .half => raw.toUInt16.toInt16.toInt32.toUInt32
  | .word | .double => raw.toUInt32

/-- Loads into a register and answers the address. The register is looked at before the base, and
that before memory. -/
def load (m : Machine) (rt base : Nat) (offset : Int16) (width : Width) :
    Except Error (UInt32 × Machine) := do
  let _ ← m.registers.get rt
  let address ← m.effectiveAddress base offset
  let raw ← checked (m.memory.load address width)
  let (_, registers) ← m.registers.write rt (extended width raw)
  return (address, { m with registers })

/-- Stores the low bytes of a register and answers the address. -/
def store (m : Machine) (rt base : Nat) (offset : Int16) (width : Width) :
    Except Error (UInt32 × Machine) := do
  let value ← m.registers.read rt
  let address ← m.effectiveAddress base offset
  let memory ← checked (m.memory.store address width value.toUInt64)
  return (address, { m with memory })

/-- The address check alone. -/
def probe (m : Machine) (address : UInt32) (kind : AccessKind) (width : Width) :
    Except Error UInt32 :=
  checked (m.memory.validator.validate address kind width)

/-! ### Runs of operations -/

/-- A call that a machine can be asked to carry out. -/
inductive Operation where
  | register (operation : RegisterFile.Operation)
  | load (rt base : Nat) (offset : Int16) (width : Width)
  | store (rt base : Nat) (offset : Int16) (width : Width)
  | effectiveAddress (base : Nat) (offset : Int16)
  | probe (address : UInt32) (kind : AccessKind) (width : Width)
  | loadMemory (address : UInt32) (width : Width)
  | storeMemory (address : UInt32) (width : Width) (value : UInt64)
  | fetch (address : UInt32)
  | image (base : UInt32) (bytes : List UInt8)

/-- What an operation answers. -/
inductive Outcome where
  | register (outcome : RegisterFile.Outcome)
  | address (a : UInt32)
  | contents (value : UInt64)
  | instruction (word : UInt32)
  | done
  deriving DecidableEq, Repr

/-- Carries an operation out; the machine in the answer is the one after it. -/
def perform (m : Machine) : Operation → Except Error (Outcome × Machine)
  | .register operation =>
    (m.registers.perform operation).map fun (outcome, registers) =>
      (.register outcome, { m with registers })
  | .load rt base offset width => (m.load rt base offset width).map fun (a, m) => (.address a, m)
  | .store rt base offset width => (m.store rt base offset width).map fun (a, m) => (.address a, m)
  | .effectiveAddress base offset => (m.effectiveAddress base offset).map fun a => (.address a, m)
  | .probe address kind width => (m.probe address kind width).map fun a => (.address a, m)
  | .loadMemory address width =>
    (checked (m.memory.load address width)).map fun value => (.contents value, m)
  | .storeMemory address width value =>
    (checked (m.memory.store address width value)).map fun memory => (.done, { m with memory })
  | .fetch address => (checked (m.memory.fetch address)).map fun word => (.instruction word, m)
  | .image base bytes => .ok (.done, { m with memory := m.memory.place base bytes })

/-- The answer and the machine afterwards; a failed operation leaves the machine alone. -/
def step (m : Machine) (operation : Operation) : Except Error Outcome × Machine :=
  match m.perform operation with
  | .ok (outcome, m) => (.ok outcome, m)
  | .error e => (.error e, m)

/-- The answers to a sequence of operations, failed ones included, and the machine at the end. -/
def run (m : Machine) : List Operation → List (Except Error Outcome) × Machine
  | [] => ([], m)
  | operation :: rest =>
    let (answer, m) := m.step operation
    let (answers, m) := m.run rest
    (answer :: answers, m)

end Machine

end MipsMemory
