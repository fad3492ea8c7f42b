import MipsMemory.Machine
import MipsMemory.Proofs.Procedure

/-!
A machine that is changed in place. Every operation is written out once more as looks at the machine
and assignments to single registers and bytes, one after another, where a failure keeps whatever was
assigned before it. Main statement: no operation looks for faults once it has assigned, so that in
place it answers and leaves what `Machine.step` does.
-/

namespace MipsMemory

namespace Machine

open Procedure (ask exec settle)

/-! ## Assignments -/

/-- Gives one register a value. -/
def setRegister (number : Nat) (value : UInt32) : Procedure Machine Error Unit :=
  modify fun m => { m with
    registers.registers := RegisterFile.setValue m.registers.registers number value }

/-- Gives one byte of memory a value. -/
def setByte (address : UInt32) (b : UInt8) : Procedure Machine Error Unit :=
  modify fun m => { m with memory := m.memory.setByte address b }

/-- Bytes from an address on, one at a time. -/
def setBytes (address : UInt32) : List UInt8 → Procedure Machine Error Unit
  | [] => return ()
  | b :: rest => do
    setByte address b
    setBytes (address + 1) rest

/-! ## Operations -/

/-- The write of a register, which answers the value before. -/
def writeInPlace (number : Nat) (value : UInt32) : Procedure Machine Error UInt32 := do
  let previous ← ask (·.registers.read number)
  setRegister number value
  return previous

/-- The store of a number: one check, then its bytes. -/
def storeMemoryInPlace (address : UInt32) (width : Width) (value : UInt64) :
    Procedure Machine Error Unit := do
  let address ← ask fun m => checked (m.memory.validator.validate address .store width)
  setBytes address (Memory.lowBytes width.bytes value)

/-- The load into a register. Everything is looked at before the register is written. -/
def loadInPlace (rt base : Nat) (offset : Int16) (width : Width) :
    Procedure Machine Error UInt32 := do
  let _ ← ask (·.registers.get rt)
  let address ← ask (·.effectiveAddress base offset)
  let raw ← ask fun m => checked (m.memory.load address width)
  let _ ← writeInPlace rt (extended width raw)
  return address

/-- The store from a register. -/
def storeInPlace (rt base : Nat) (offset : Int16) (width : Width) :
    Procedure Machine Error UInt32 := do
  let value ← ask (·.registers.read rt)
  let address ← ask (·.effectiveAddress base offset)
  storeMemoryInPlace address width value.toUInt64
  return address

/-- An operation on the registers. -/
def registerInPlace : RegisterFile.Operation → Procedure Machine Error RegisterFile.Outcome
  | .read number => do
    let value ← ask (·.registers.read number)
    return .value value
  | .write number value => do
    let previous ← writeInPlace number value
    return .value previous
  | .get number => do
    let r ← ask (·.registers.get number)
    return .register r
  | .lookup name => do
    let number ← ask (·.registers.lookup name)
    return .number number
  | .setPc pc => do
    modify fun m => { m with registers.pc := pc }
    return .done
  | .setHi hi => do
    modify fun m => { m with registers.hi := hi }
    return .done
  | .setLo lo => do
    modify fun m => { m with registers.lo := lo }
    return .done
  | .reset map => do
    modify fun m => { m with registers := m.registers.reset map }
    return .done

/-- An operation on the machine. -/
def performInPlace : Operation → Procedure Machine Error Outcome
  | .register operation => do
    let outcome ← registerInPlace operation
    return .register outcome
  | .load rt base offset width => do
    let address ← loadInPlace rt base offset width
    return .address address
  | .store rt base offset width => do
    let address ← storeInPlace rt base offset width
    return .address address
  | .effectiveAddress base offset => do
    let address ← ask (·.effectiveAddress base offset)
    return .address address
  | .probe address kind width => do
    let address ← ask (·.probe address kind width)
    return .address address
  | .loadMemory address width => do
    let value ← ask fun m => checked (m.memory.load address width)
    return .contents value
  | .storeMemory address width value => do
    storeMemoryInPlace address width value
    return .done
  | .fetch address => do
    let word ← ask fun m => checked (m.memory.fetch address)
    return .instruction word
  | .image base bytes => do
    setBytes base bytes
    return .done

/-! ## In place as in one piece -/

theorem step_eq_settle (m : Machine) (operation : Operation) :
    m.step operation = settle m (m.perform operation) := by
  unfold step
  cases m.perform operation <;> rfl

theorem exec_setBytes (address : UInt32) (bytes : List UInt8) (m : Machine) :
    exec (setBytes address bytes) m =
      (.ok (), { m with memory := m.memory.place address bytes }) := by
  induction bytes generalizing address m with
  | nil => rfl
  | cons b bytes ih =>
    simp only [setBytes, setByte, Procedure.exec_bind, Procedure.exec_modify, ih]
    rfl

theorem exec_writeInPlace (number : Nat) (value : UInt32) (m : Machine) :
    exec (writeInPlace number value) m =
      settle m ((m.registers.write number value).map fun (previous, registers) =>
        (previous, { m with registers })) := by
  simp only [writeInPlace, setRegister, RegisterFile.write, Procedure.exec_bind,
    Procedure.exec_ask]
  cases m.registers.read number <;> rfl

theorem exec_storeMemoryInPlace (address : UInt32) (width : Width) (value : UInt64) (m : Machine) :
    exec (storeMemoryInPlace address width value) m =
      settle m ((checked (m.memory.store address width value)).map fun memory =>
        ((), { m with memory })) := by
  simp only [storeMemoryInPlace, Memory.store, Procedure.exec_bind, Procedure.exec_ask]
  cases m.memory.validator.validate address .store width with
  | error e => rfl
  | ok result => exact exec_setBytes ..

theorem exec_loadInPlace (rt base : Nat) (offset : Int16) (width : Width) (m : Machine) :
    exec (loadInPlace rt base offset width) m = settle m (m.load rt base offset width) := by
  refine Procedure.exec_ask_bind fun _ => Procedure.exec_ask_bind fun address =>
    Procedure.exec_ask_bind fun raw => ?_
  rw [Procedure.exec_bind, exec_writeInPlace]
  cases m.registers.write rt (extended width raw) <;> rfl

theorem exec_storeInPlace (rt base : Nat) (offset : Int16) (width : Width) (m : Machine) :
    exec (storeInPlace rt base offset width) m = settle m (m.store rt base offset width) := by
  refine Procedure.exec_ask_bind fun value => Procedure.exec_ask_bind fun address => ?_
  rw [Procedure.exec_bind, exec_storeMemoryInPlace]
  cases checked (m.memory.store address width value.toUInt64) <;> rfl

theorem exec_registerInPlace (operation : RegisterFile.Operation) (m : Machine) :
    exec (registerInPlace operation) m =
      settle m ((m.registers.perform operation).map fun (outcome, registers) =>
        (outcome, { m with registers })) := by
  cases operation with
  | read number =>
    refine (Procedure.exec_ask_map _ RegisterFile.Outcome.value m).trans ?_
    simp only [RegisterFile.perform]
    cases m.registers.read number <;> rfl
  | write number value =>
    refine (Procedure.exec_map (exec_writeInPlace ..) RegisterFile.Outcome.value).trans ?_
    simp only [RegisterFile.perform]
    cases m.registers.write number value <;> rfl
  | get number =>
    refine (Procedure.exec_ask_map _ RegisterFile.Outcome.register m).trans ?_
    simp only [RegisterFile.perform]
    cases m.registers.get number <;> rfl
  | lookup name =>
    refine (Procedure.exec_ask_map _ RegisterFile.Outcome.number m).trans ?_
    simp only [RegisterFile.perform]
    cases m.registers.lookup name <;> rfl
  | setPc | setHi | setLo | reset =>
    simp only [registerInPlace, Procedure.exec_bind, Procedure.exec_modify, Procedure.exec_pure]
    rfl

/-- Every operation does in place what it does in one piece. -/
theorem exec_performInPlace (operation : Operation) (m : Machine) :
    exec (performInPlace operation) m = m.step operation := by
  rw [step_eq_settle]
  cases operation with
  | register operation =>
    refine (Procedure.exec_map (exec_registerInPlace ..) Outcome.register).trans ?_
    simp only [perform]
    cases m.registers.perform operation <;> rfl
  | load rt base offset width => exact Procedure.exec_map (exec_loadInPlace ..) Outcome.address
  | store rt base offset width => exact Procedure.exec_map (exec_storeInPlace ..) Outcome.address
  | effectiveAddress base offset => exact Procedure.exec_ask_map _ Outcome.address m
  | probe address kind width => exact Procedure.exec_ask_map _ Outcome.address m
  | loadMemory address width => exact Procedure.exec_ask_map _ Outcome.contents m
  | storeMemory address width value =>
    refine (Procedure.exec_map (exec_storeMemoryInPlace ..) fun _ => Outcome.done).trans ?_
    simp only [perform]
    cases checked (m.memory.store address width value) <;> rfl
  | fetch address => exact Procedure.exec_ask_map _ Outcome.instruction m
  | image base bytes =>
    simp only [performInPlace, Procedure.exec_bind, exec_setBytes]
    rfl

end Machine

end MipsMemory
