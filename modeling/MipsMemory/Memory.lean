import MipsMemory.Access
import Std.Data.HashMap

/-!
A sparse little-endian byte store behind the access rules of a memory map. Bytes never written are
zero. Main statements: writing bytes one after another changes no address but those they go to, and
the number at an address is what shifting its bytes to their places gathers.
-/

namespace MipsMemory

/-- The bytes that have been written, and the map whose rules accesses keep to. -/
structure Memory where
  map : MemoryMap
  bytes : Std.HashMap UInt32 UInt8

namespace Memory

/-- Nothing written yet. -/
def fresh (m : MemoryMap) : Memory := ⟨m, ∅⟩

/-- The byte at an address. -/
def byte (mem : Memory) (address : UInt32) : UInt8 := mem.bytes.getD address 0

/-- Writes one byte, without any check. -/
def setByte (mem : Memory) (address : UInt32) (b : UInt8) : Memory :=
  { mem with bytes := mem.bytes.insert address b }

/-- Writes bytes from an address on, without any check; after the last address comes the first. -/
def place (mem : Memory) (address : UInt32) : List UInt8 → Memory
  | [] => mem
  | b :: rest => (mem.setByte address b).place (address + 1) rest

/-- The number that bytes make, the lowest first. -/
def littleEndian : List UInt8 → Nat
  | [] => 0
  | b :: rest => b.toNat + 256 * littleEndian rest

/-- The lowest bytes of a number, the lowest first. -/
def lowBytes (count : Nat) (value : UInt64) : List UInt8 :=
  (List.range count).map fun i => (value >>> UInt64.ofNat (8 * i)).toUInt8

/-- The bytes from an address on. -/
def bytesFrom (mem : Memory) (address : UInt32) (count : Nat) : List UInt8 :=
  (List.range count).map fun i => mem.byte (address + UInt32.ofNat i)

/-- The number stored at an address, without any check. -/
def peek (mem : Memory) (address : UInt32) (width : Width) : UInt64 :=
  UInt64.ofNat (littleEndian (mem.bytesFrom address width.bytes))

/-- The number at an address as it is gathered, each byte shifted to its place and set in. -/
def gathered (mem : Memory) (address : UInt32) (count : Nat) : UInt64 :=
  (List.range count).foldl
    (fun sum i => sum ||| (mem.byte (address + UInt32.ofNat i)).toUInt64 <<< UInt64.ofNat (8 * i)) 0

/-- Every access goes through the validator of the map. -/
def validator (mem : Memory) : Validator := .ofMap mem.map

/-- The number at an address, if it may be loaded. -/
def load (mem : Memory) (address : UInt32) (width : Width) : Except AddressError UInt64 :=
  (mem.validator.validate address .load width).map fun address => mem.peek address width

/-- Stores as many low bytes of a number as the width has. -/
def store (mem : Memory) (address : UInt32) (width : Width) (value : UInt64) :
    Except AddressError Memory :=
  (mem.validator.validate address .store width).map fun address =>
    mem.place address (lowBytes width.bytes value)

/-- The word at an address, if instructions may be fetched there. -/
def fetch (mem : Memory) (address : UInt32) : Except AddressError UInt32 :=
  (mem.validator.validateFetch address).map fun address => (mem.peek address .word).toUInt32

/-! ### Numbers from bytes -/

theorem littleEndian_concat (bytes : List UInt8) (b : UInt8) :
    littleEndian (bytes ++ [b]) = b.toNat <<< (8 * bytes.length) + littleEndian bytes := by
  induction bytes with
  | nil => simp [littleEndian]
  | cons c bytes ih =>
    rw [List.cons_append, littleEndian, ih, littleEndian, List.length_cons, Nat.mul_succ,
      Nat.shiftLeft_add]
    omega

theorem littleEndian_lt (bytes : List UInt8) : littleEndian bytes < 1 <<< (8 * bytes.length) := by
  induction bytes with
  | nil => decide
  | cons c bytes ih =>
    have hc := c.toNat_lt
    rw [littleEndian, List.length_cons, Nat.mul_succ, Nat.shiftLeft_add]
    omega

/-- A byte at its place in a word. -/
theorem toNat_shifted (b : UInt8) {i : Nat} (h : i < 8) :
    (b.toUInt64 <<< UInt64.ofNat (8 * i)).toNat = b.toNat <<< (8 * i) := by
  have hshift : (UInt64.ofNat (8 * i)).toNat % 64 = 8 * i := by
    rw [UInt64.toNat_ofNat_of_lt' (by simp [UInt64.size]; omega)]
    omega
  rw [UInt64.toNat_shiftLeft, hshift, UInt8.toNat_toUInt64]
  apply Nat.mod_eq_of_lt
  rw [Nat.shiftLeft_eq]
  calc b.toNat * 2 ^ (8 * i) < 2 ^ 8 * 2 ^ (8 * i) :=
        Nat.mul_lt_mul_of_pos_right b.toNat_lt (Nat.two_pow_pos _)
    _ = 2 ^ (8 + 8 * i) := (Nat.pow_add 2 8 (8 * i)).symm
    _ ≤ 2 ^ 64 := Nat.pow_le_pow_right (by decide) (by omega)

/-- As long as they have room in a word, bytes that are gathered make their number. -/
theorem toNat_gathered (mem : Memory) (address : UInt32) {count : Nat} (h : count ≤ 8) :
    (mem.gathered address count).toNat = littleEndian (mem.bytesFrom address count) := by
  induction count with
  | zero => rfl
  | succ count ih =>
    have hlength : (mem.bytesFrom address count).length = count := by simp [bytesFrom]
    have hlast : mem.bytesFrom address (count + 1) =
        mem.bytesFrom address count ++ [mem.byte (address + UInt32.ofNat count)] := by
      simp [bytesFrom, List.range_succ]
    have hroom := littleEndian_lt (mem.bytesFrom address count)
    rw [hlength, Nat.one_shiftLeft] at hroom
    rw [hlast, littleEndian_concat, hlength, Nat.shiftLeft_add_eq_or_of_lt hroom, Nat.or_comm,
      ← ih (Nat.le_of_succ_le h), ← toNat_shifted _ h, ← UInt64.toNat_or]
    simp [gathered, List.range_succ]

/-- The number at an address is the one that is gathered there. -/
theorem peek_eq_gathered (mem : Memory) (address : UInt32) (width : Width) :
    mem.peek address width = mem.gathered address width.bytes := by
  rw [peek, ← mem.toNat_gathered address width.bytes_le, UInt64.ofNat_toNat]

/-! ### What writing keeps -/

@[simp] theorem validate_validator (mem : Memory) (address : UInt32) (kind : AccessKind)
    (width : Width) :
    mem.validator.validate address kind width = mem.map.validate address kind width :=
  Validator.validate_ofMap ..

@[simp] theorem validateFetch_validator (mem : Memory) (address : UInt32) :
    mem.validator.validateFetch address = mem.map.validateFetch address := rfl

@[simp] theorem byte_fresh (m : MemoryMap) (address : UInt32) : (fresh m).byte address = 0 := by
  simp [fresh, byte]

theorem byte_setByte (mem : Memory) (address x : UInt32) (b : UInt8) :
    (mem.setByte address b).byte x = if address = x then b else mem.byte x := by
  simp [setByte, byte, Std.HashMap.getD_insert]

@[simp] theorem map_place (mem : Memory) (address : UInt32) (bs : List UInt8) :
    (mem.place address bs).map = mem.map := by
  induction bs generalizing mem address with
  | nil => rfl
  | cons b bs ih => simp [place, ih, setByte]

theorem byte_place_of_forall_ne (mem : Memory) (address x : UInt32) (bs : List UInt8)
    (h : ∀ i < bs.length, address + UInt32.ofNat i ≠ x) :
    (mem.place address bs).byte x = mem.byte x := by
  induction bs generalizing mem address with
  | nil => rfl
  | cons b bs ih =>
    have hx : address ≠ x := by simpa using h 0 (by simp)
    rw [place, ih, byte_setByte, if_neg hx]
    intro i hi e
    refine h (i + 1) (by simpa using hi) ?_
    rw [← e, UInt32.add_assoc]
    congr 1
    apply UInt32.toNat_inj.mp
    simp [UInt32.toNat_add, Nat.add_comm]

end Memory

end MipsMemory
