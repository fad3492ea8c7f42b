import MipsMemory.Error

/-!
General-purpose registers with the program counter and the multiplier's two. Nothing is hardwired: a
write to register zero stays. Main statements: a written register reads back, and a write changes
no other register.
-/

namespace MipsMemory

/-- A register with its name and its number. -/
structure Register where
  name : String
  number : Nat
  value : UInt32
  deriving DecidableEq, Repr

/-- General-purpose registers in the order of their slots, and three that have no number. -/
structure RegisterFile where
  registers : List Register
  pc : UInt32
  hi : UInt32
  lo : UInt32
  deriving DecidableEq, Repr

namespace RegisterFile

/-- The conventional names in the order of their numbers, without the leading dollar sign. -/
def conventionalNames : List String := [
  "zero", "at", "v0", "v1", "a0", "a1", "a2", "a3",
  "t0", "t1", "t2", "t3", "t4", "t5", "t6", "t7",
  "s0", "s1", "s2", "s3", "s4", "s5", "s6", "s7",
  "t8", "t9", "k0", "k1", "gp", "sp", "fp", "ra"]

/-- The number of the global pointer. -/
def globalPointer : Nat := 28

/-- The number of the stack pointer. -/
def stackPointer : Nat := 29

/-- Gives a register a value, if there is such a register. -/
def setValue (registers : List Register) (number : Nat) (value : UInt32) : List Register :=
  registers.modify number ({ · with value })

/-- Clears every register and starts at the text base. Only a file of conventional size has a global
and a stack pointer to set. -/
def reset (f : RegisterFile) (m : MemoryMap) : RegisterFile :=
  let cleared := f.registers.map ({ · with value := 0 })
  { registers :=
      if cleared.length = conventionalNames.length then
        setValue (setValue cleared globalPointer m.globalPointer) stackPointer m.stackPointer
      else cleared
    pc := m.text.first
    hi := 0
    lo := 0 }

/-- The conventional registers, all zero. -/
def blank : RegisterFile :=
  ⟨conventionalNames.mapIdx fun number name => ⟨"$" ++ name, number, 0⟩, 0, 0, 0⟩

/-- The conventional registers as a map sets them up. -/
def fresh (m : MemoryMap) : RegisterFile := blank.reset m

/-- The first register whose number is not its place, counting places from `slot`. -/
def mismatch? (slot : Nat) : List Register → Option (Nat × Nat)
  | [] => none
  | r :: rest => if r.number = slot then mismatch? (slot + 1) rest else some (slot, r.number)

/-- A file of any size; each register's number must be its place. -/
def ofRegisters (registers : List Register) : Except Error RegisterFile :=
  match mismatch? 0 registers with
  | some (slot, number) => .error (.registerSlotMismatch slot number)
  | none => .ok ⟨registers, 0, 0, 0⟩

/-- The register in a slot. -/
def get (f : RegisterFile) (number : Nat) : Except Error Register :=
  match f.registers[number]? with
  | some r => .ok r
  | none => .error (.invalidRegisterNumber number)

/-- The value of a register. -/
def read (f : RegisterFile) (number : Nat) : Except Error UInt32 :=
  (f.get number).map Register.value

/-- Answers the previous value. -/
def write (f : RegisterFile) (number : Nat) (value : UInt32) :
    Except Error (UInt32 × RegisterFile) :=
  (f.read number).map fun previous =>
    (previous, { f with registers := setValue f.registers number value })

/-- The number a name stands for: a numeral below two to the 64th power, or a conventional name. -/
def number? (bare : List Char) : Option Nat :=
  match Numeral.unsigned? 10 UInt64.size bare with
  | some n => some n
  | none => conventionalNames.findIdx? (·.toList = bare)

/-- Finds a register by number or conventional name, with or without a dollar sign. -/
def lookup (f : RegisterFile) (name : String) : Except Error Nat :=
  let bare := match name.toList with
    | '$' :: bare => bare
    | bare => bare
  match (number? bare).filter (· < f.registers.length) with
  | some n => .ok n
  | none => .error (.unknownRegisterName name)

/-! ### Runs of operations -/

/-- A call that a register file can be asked to carry out. -/
inductive Operation where
  | read (number : Nat)
  | write (number : Nat) (value : UInt32)
  | get (number : Nat)
  | lookup (name : String)
  | setPc (value : UInt32)
  | setHi (value : UInt32)
  | setLo (value : UInt32)
  | reset (m : MemoryMap)
  deriving DecidableEq, Repr

/-- What an operation answers. -/
inductive Outcome where
  | value (v : UInt32)
  | register (r : Register)
  | number (n : Nat)
  | done
  deriving DecidableEq, Repr

/-- Carries an operation out; the file in the answer is the one after it. -/
def perform (f : RegisterFile) : Operation → Except Error (Outcome × RegisterFile)
  | .read number => (f.read number).map fun v => (.value v, f)
  | .write number value => (f.write number value).map fun (v, f) => (.value v, f)
  | .get number => (f.get number).map fun r => (.register r, f)
  | .lookup name => (f.lookup name).map fun n => (.number n, f)
  | .setPc pc => .ok (.done, { f with pc })
  | .setHi hi => .ok (.done, { f with hi })
  | .setLo lo => .ok (.done, { f with lo })
  | .reset m => .ok (.done, f.reset m)

/-- The answer and the file afterwards; a failed operation leaves the file alone. -/
def step (f : RegisterFile) (operation : Operation) : Except Error Outcome × RegisterFile :=
  match f.perform operation with
  | .ok (outcome, f) => (.ok outcome, f)
  | .error e => (.error e, f)

@[simp] theorem length_setValue (rs : List Register) (n : Nat) (v : UInt32) :
    (setValue rs n v).length = rs.length := by
  simp [setValue]

theorem getElem?_setValue (rs : List Register) (n i : Nat) (v : UInt32) :
    (setValue rs n v)[i]? = if n = i then rs[i]?.map ({ · with value := v }) else rs[i]? := by
  simp only [setValue, List.getElem?_modify]
  split <;> simp

theorem read_eq_ok_iff {f : RegisterFile} {n : Nat} {v : UInt32} :
    f.read n = .ok v ↔ ∃ r, f.registers[n]? = some r ∧ r.value = v := by
  unfold read get
  split <;> rename_i h <;> simp [h, Except.map]

theorem write_eq_ok_iff {f g : RegisterFile} {n : Nat} {v previous : UInt32} :
    f.write n v = .ok (previous, g) ↔
      f.read n = .ok previous ∧ g = { f with registers := setValue f.registers n v } := by
  unfold write
  cases f.read n <;> simp [Except.map, eq_comm]

/-- A written register reads back, and every other one reads as before. -/
theorem read_of_write {f g : RegisterFile} {n : Nat} {v previous : UInt32}
    (h : f.write n v = .ok (previous, g)) (i : Nat) :
    g.read i = if n = i then .ok v else f.read i := by
  obtain ⟨hp, rfl⟩ := write_eq_ok_iff.mp h
  obtain ⟨r, hr, -⟩ := read_eq_ok_iff.mp hp
  by_cases hi : n = i
  · subst hi
    simp [read, get, getElem?_setValue, hr, Except.map]
  · simp [read, get, getElem?_setValue, hi]

end RegisterFile

end MipsMemory
