import MipsMemory.Machine
import MipsMemory.Proofs.Memory.Frame
import MipsMemory.Proofs.RegisterFile.Slots

/-!
Loads and stores of a machine, written out. Main statements: the effective address is the exact sum
of base and displacement modulo the address space, and a load or store succeeds exactly if its
registers are there and its access is allowed.
-/

namespace MipsMemory

namespace Machine

/-- A displaced address is the exact sum, modulo the address space. -/
theorem toNat_displaced (start : UInt32) (offset : Int16) :
    ((start + offset.toInt32.toUInt32).toNat : Int) =
      (start.toNat + offset.toInt) % UInt32.size := by
  have hoffset : (offset.toInt32.toUInt32.toNat : Int) = offset.toInt % UInt32.size := by
    have h : offset.toInt32.toUInt32.toNat = (offset.toInt % UInt32.size).toNat :=
      BitVec.toNat_ofInt offset.toInt
    rw [h, Int.toNat_of_nonneg (Int.emod_nonneg _ (by decide))]
  rw [UInt32.toNat_add, Int.natCast_emod, Int.natCast_add, hoffset]
  exact Int.add_emod_emod ..

theorem effectiveAddress_eq_ok_iff {m : Machine} {base : Nat} {offset : Int16} {address : UInt32} :
    m.effectiveAddress base offset = .ok address ↔
      ∃ start, m.registers.read base = .ok start ∧
        (address.toNat : Int) = (start.toNat + offset.toInt) % UInt32.size := by
  rw [effectiveAddress, map_eq_ok_iff]
  constructor
  · rintro ⟨start, hstart, rfl⟩
    exact ⟨start, hstart, toNat_displaced start offset⟩
  · rintro ⟨start, hstart, hsum⟩
    refine ⟨start, hstart, UInt32.toNat_inj.mp ?_⟩
    rw [← toNat_displaced] at hsum
    exact (Int.natCast_inj.mp hsum).symm

theorem store_eq_ok_iff {m m' : Machine} {rt base : Nat} {offset : Int16} {width : Width}
    {address : UInt32} :
    m.store rt base offset width = .ok (address, m') ↔
      ∃ value, m.registers.read rt = .ok value ∧ m.effectiveAddress base offset = .ok address ∧
        m.memory.map.validate address .store width = .ok address ∧
        m' = { m with memory := m.memory.place address (Memory.lowBytes width.bytes value.toUInt64) } := by
  simp only [store, checked, bind_eq_ok_iff, mapError_eq_ok_iff, Memory.store_eq_ok_iff]
  constructor
  · rintro ⟨value, hvalue, _, haddress, _, ⟨hallowed, rfl⟩, h⟩
    cases h
    exact ⟨value, hvalue, haddress, hallowed, rfl⟩
  · rintro ⟨value, hvalue, haddress, hallowed, rfl⟩
    exact ⟨value, hvalue, address, haddress, _, ⟨hallowed, rfl⟩, rfl⟩

theorem load_eq_ok_iff {m m' : Machine} {rt base : Nat} {offset : Int16} {width : Width}
    {address : UInt32} :
    m.load rt base offset width = .ok (address, m') ↔
      ∃ previous registers, m.effectiveAddress base offset = .ok address ∧
        m.memory.map.validate address .load width = .ok address ∧
        m.registers.write rt (extended width (m.memory.peek address width)) =
          .ok (previous, registers) ∧
        m' = { m with registers } := by
  simp only [load, checked, bind_eq_ok_iff, mapError_eq_ok_iff, Memory.load_eq_ok_iff]
  constructor
  · rintro ⟨_, -, _, haddress, _, ⟨hallowed, rfl⟩, ⟨previous, registers⟩, hwrite, h⟩
    cases h
    exact ⟨previous, registers, haddress, hallowed, hwrite, rfl⟩
  · rintro ⟨previous, registers, haddress, hallowed, hwrite, rfl⟩
    -- the register that is written at the end is there to be looked at first
    obtain ⟨r, hget⟩ := RegisterFile.exists_get
      (RegisterFile.lt_of_read (RegisterFile.write_eq_ok_iff.mp hwrite).1)
    exact ⟨r, hget, address, haddress, _, ⟨hallowed, rfl⟩, _, hwrite, rfl⟩

end Machine

end MipsMemory
