import MipsMemory.Proofs.Machine.Instructions
import MipsMemory.Proofs.Memory.FlatArray

/-!
What a register's value is after it was stored and loaded again. `Stored` and `Loaded` say what the
two instructions do to a machine, and `reloaded` which part of a value comes back at a width. Main
statement: after every store that succeeds, the load of the same operands succeeds at the same
address and gives any register there is what is left of the value stored, be it the register that
was stored, the base register or another one.
-/

namespace MipsMemory

/-! ## Sums of bytes -/

theorem sum_bytes_eq_mod (value count : Nat) :
    ∑ i ∈ Finset.range count, value / 256 ^ i % 256 * 256 ^ i = value % 256 ^ count := by
  induction count with
  | zero => simp [Nat.mod_one]
  | succ count ih => rw [Finset.sum_range_succ, ih, Nat.mod_pow_succ, Nat.mul_comm]

/-- An item that was placed reads back as the number stored, as far as the item has room for it. -/
theorem Memory.toNat_peek_place (mem : Memory) {address : UInt32} {width : Width}
    (h : width.IsAligned address.toNat) (value : UInt64) :
    ((mem.place address (lowBytes width.bytes value)).peek address width).toNat =
      value.toNat % 256 ^ width.bytes := by
  have hset := (mem.stored_place h value).set
  rw [toNat_peek, FlatMemory.value, ← sum_bytes_eq_mod]
  refine Finset.sum_congr rfl fun i hi => ?_
  rw [hset i (Finset.mem_range.mp hi)]

namespace Machine

/-! ## What loads and stores do to a machine -/

/-- A register's value is in memory from an address on, its lowest byte first and zeros after its
highest, and nothing else changed. -/
structure Stored (m : Machine) (address : UInt32) (width : Width) (value : UInt32) (m' : Machine) :
    Prop where
  registers : m'.registers = m.registers
  map : m'.memory.map = m.memory.map
  set : ∀ i < width.bytes,
    (m'.memory.byte (address + UInt32.ofNat i)).toNat = value.toNat / 256 ^ i % 256
  zero : ∀ i, 4 ≤ i → i < width.bytes → m'.memory.byte (address + UInt32.ofNat i) = 0
  kept : ∀ x : UInt32, x.toNat < address.toNat ∨ address.toNat + width.bytes ≤ x.toNat →
    m'.memory.byte x = m.memory.byte x

/-- A register has a value, and nothing else changed. -/
structure Loaded (m : Machine) (rt : Nat) (value : UInt32) (m' : Machine) : Prop where
  memory : m'.memory = m.memory
  pc : m'.registers.pc = m.registers.pc
  hi : m'.registers.hi = m.registers.hi
  lo : m'.registers.lo = m.registers.lo
  read : m'.registers.read rt = .ok value
  kept : ∀ other, other ≠ rt → m'.registers.get other = m.registers.get other

/-- What is left of a value that was stored: the sign extension of its low byte or halfword, and all
of it at the wider widths. -/
def reloaded (width : Width) (value : UInt32) : UInt32 :=
  match width with
  | .byte => .ofBitVec ((value.toBitVec.setWidth 8).signExtend 32)
  | .half => .ofBitVec ((value.toBitVec.setWidth 16).signExtend 32)
  | .word | .double => value

theorem stored_place (m : Machine) {address : UInt32} {width : Width}
    (h : width.IsAligned address.toNat) (value : UInt32) :
    m.Stored address width value
      { m with memory := m.memory.place address (Memory.lowBytes width.bytes value.toUInt64) } := by
  obtain ⟨hset, hkept⟩ := m.memory.stored_place h value.toUInt64
  rw [UInt32.toNat_toUInt64] at hset
  refine ⟨rfl, Memory.map_place .., hset, fun i hfour hi => ?_, fun x hx => hkept x fun i hi he => ?_⟩
  · have hpow : 256 ^ 4 ≤ 256 ^ i := Nat.pow_le_pow_right (by decide) hfour
    have hbyte := hset i hi
    rw [Nat.div_eq_of_lt (Nat.lt_of_lt_of_le value.toNat_lt_size hpow)] at hbyte
    exact UInt8.toNat_inj.mp hbyte
  · rw [← he, h.toNat_add hi] at hx
    omega

theorem loaded_of_write {m : Machine} {rt : Nat} {value previous : UInt32}
    {registers : RegisterFile} (h : m.registers.write rt value = .ok (previous, registers)) :
    m.Loaded rt value { m with registers } := by
  have hread := RegisterFile.read_of_write h rt
  rw [if_pos rfl] at hread
  have hkept (other : Nat) (hne : other ≠ rt) := RegisterFile.get_of_write h hne
  obtain ⟨-, rfl⟩ := RegisterFile.write_eq_ok_iff.mp h
  exact ⟨rfl, rfl, rfl, rfl, hread, hkept⟩

/-- The bytes that an item has room for decide what a register gets from it. -/
theorem extended_eq_reloaded {width : Width} {raw : UInt64} {value : UInt32}
    (h : raw.toNat = value.toNat % 256 ^ width.bytes) : extended width raw = reloaded width value := by
  have hvalue := value.toNat_lt_size
  simp only [UInt32.size] at hvalue
  cases width with
  | byte =>
    have hlow : raw.toUInt8 = value.toUInt8 := by
      rw [← UInt8.toNat_inj, UInt64.toNat_toUInt8, UInt32.toNat_toUInt8, h]
      exact Nat.mod_mod ..
    change raw.toUInt8.toInt8.toInt32.toUInt32 = _
    rw [hlow]
    rfl
  | half =>
    have hlow : raw.toUInt16 = value.toUInt16 := by
      rw [← UInt16.toNat_inj, UInt64.toNat_toUInt16, UInt32.toNat_toUInt16, h]
      exact Nat.mod_mod ..
    change raw.toUInt16.toInt16.toInt32.toUInt32 = _
    rw [hlow]
    rfl
  | word | double =>
    simp only [extended, reloaded]
    rw [← UInt32.toNat_inj, UInt64.toNat_toUInt32, h]
    simp only [Width.bytes]
    omega

/-! ## Storing and loading again -/

/-- A register's value that is stored can be loaded again by the same operands into any register:
from the exact effective address, as what is left of it at the width, with nothing else changed by
either instruction. -/
theorem load_of_store {m m' : Machine} {rt base : Nat} {offset : Int16} {width : Width}
    {address : UInt32} (h : m.store rt base offset width = .ok (address, m')) :
    ∃ value start, m.registers.read rt = .ok value ∧ m.registers.read base = .ok start ∧
      (address.toNat : Int) = (start.toNat + offset.toInt) % UInt32.size ∧
      m.Stored address width value m' ∧
      ∀ rt', rt' < m.registers.registers.length →
        ∃ m'', m'.load rt' base offset width = .ok (address, m'') ∧
          m'.Loaded rt' (reloaded width value) m'' := by
  obtain ⟨value, hvalue, haddress, hallowed, rfl⟩ := store_eq_ok_iff.mp h
  obtain ⟨start, hstart, hsum⟩ := effectiveAddress_eq_ok_iff.mp haddress
  obtain ⟨-, haligned, -⟩ := checkAccess_eq_ok_iff.mp hallowed
  refine ⟨value, start, hvalue, hstart, hsum, m.stored_place haligned value, fun rt' hrt' => ?_⟩
  have hraw := m.memory.toNat_peek_place haligned value.toUInt64
  rw [UInt32.toNat_toUInt64] at hraw
  obtain ⟨previous, hwrite⟩ := RegisterFile.exists_write hrt' (reloaded width value)
  refine ⟨_, load_eq_ok_iff.mpr ⟨previous, _, haddress, ?_, ?_, rfl⟩, loaded_of_write hwrite⟩
  · rw [Memory.map_place]
    exact MemoryMap.validate_load_of_store hallowed
  · rw [extended_eq_reloaded hraw]
    exact hwrite

/-- The stack pointer stored through itself and loaded again through itself, as a byte. -/
theorem load_of_store_stack :
    ∃ m' m'', (fresh .standard).store 29 29 (-4) .byte = .ok (0x7fffeff8, m') ∧
      m'.load 29 29 (-4) .byte = .ok (0x7fffeff8, m'') ∧
      m''.registers.read 29 = .ok 0xfffffffc := by
  have h : (fresh .standard).store 29 29 (-4) .byte = .ok (0x7fffeff8, _) := rfl
  obtain ⟨value, start, hvalue, -, -, -, hload⟩ := load_of_store h
  obtain ⟨m'', hm'', hloaded⟩ := hload 29 (by decide)
  cases hvalue
  exact ⟨_, m'', h, hm'', hloaded.read⟩

end Machine

end MipsMemory
