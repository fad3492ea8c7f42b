import MipsMemory.Proofs.Except
import MipsMemory.RegisterFile

/-!
Which registers a file has. Main statements: a register can be looked at, read and written exactly
if its number is below the number of registers, and no operation makes them more or fewer.
-/

namespace MipsMemory

namespace RegisterFile

variable {f g : RegisterFile} {number : Nat}

/-! ## Registers there are and registers there are not -/

theorem get_eq_ok_iff {r : Register} : f.get number = .ok r ↔ f.registers[number]? = some r := by
  unfold get
  split <;> rename_i h <;> simp [h]

theorem get_eq_error_iff {e : Error} :
    f.get number = .error e ↔
      f.registers.length ≤ number ∧ e = .invalidRegisterNumber number := by
  unfold get
  split
  · rename_i h
    have hlt := (List.getElem?_eq_some_iff.mp h).1
    simp [Nat.not_le.mpr hlt]
  · rename_i h
    simp [List.getElem?_eq_none_iff.mp h, eq_comm]

theorem exists_get (h : number < f.registers.length) : ∃ r, f.get number = .ok r :=
  ⟨_, get_eq_ok_iff.mpr (List.getElem?_eq_getElem h)⟩

theorem lt_of_get {r : Register} (h : f.get number = .ok r) : number < f.registers.length :=
  (List.getElem?_eq_some_iff.mp (get_eq_ok_iff.mp h)).1

theorem read_eq_error_iff {e : Error} :
    f.read number = .error e ↔
      f.registers.length ≤ number ∧ e = .invalidRegisterNumber number := by
  rw [read, map_eq_error_iff, get_eq_error_iff]

theorem lt_of_read {value : UInt32} (h : f.read number = .ok value) :
    number < f.registers.length := by
  obtain ⟨r, hr, -⟩ := map_eq_ok_iff.mp h
  exact lt_of_get hr

/-- A register there is takes every value. -/
theorem exists_write (h : number < f.registers.length) (value : UInt32) :
    ∃ previous, f.write number value =
      .ok (previous, { f with registers := setValue f.registers number value }) := by
  obtain ⟨r, hr⟩ := exists_get h
  exact ⟨r.value, write_eq_ok_iff.mpr ⟨map_eq_ok_iff.mpr ⟨r, hr, rfl⟩, rfl⟩⟩

/-- A write leaves name, number and value of every other register. -/
theorem get_of_write {value previous : UInt32} (h : f.write number value = .ok (previous, g))
    {other : Nat} (hne : other ≠ number) : g.get other = f.get other := by
  obtain ⟨-, rfl⟩ := write_eq_ok_iff.mp h
  unfold get
  rw [getElem?_setValue, if_neg (Ne.symm hne)]

/-! ## The number of registers -/

@[simp]
theorem length_reset (f : RegisterFile) (m : MemoryMap) :
    (f.reset m).registers.length = f.registers.length := by
  unfold reset
  simp only
  split <;> simp

@[simp]
theorem length_fresh (m : MemoryMap) : (fresh m).registers.length = 32 := by
  rw [fresh, length_reset]
  rfl

theorem length_of_perform {operation : Operation} {outcome : Outcome}
    (h : f.perform operation = .ok (outcome, g)) : g.registers.length = f.registers.length := by
  cases operation with
  | read number =>
    obtain ⟨_, -, he⟩ := map_eq_ok_iff.mp h
    cases he
    rfl
  | write number value =>
    obtain ⟨⟨_, _⟩, hwrite, he⟩ := map_eq_ok_iff.mp h
    cases he
    obtain ⟨-, rfl⟩ := write_eq_ok_iff.mp hwrite
    exact length_setValue ..
  | get number =>
    obtain ⟨_, -, he⟩ := map_eq_ok_iff.mp h
    cases he
    rfl
  | lookup name =>
    obtain ⟨_, -, he⟩ := map_eq_ok_iff.mp h
    cases he
    rfl
  | setPc | setHi | setLo =>
    cases h
    rfl
  | reset m =>
    cases h
    exact length_reset ..

end RegisterFile

end MipsMemory
