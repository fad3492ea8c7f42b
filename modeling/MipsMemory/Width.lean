/-!
Widths of scalar memory items. A width is also its own natural alignment. Main statements: both
encodings of a width, byte count and alignment exponent, read back.
-/

namespace MipsMemory

/-- The largest number of a 64-bit word. -/
def word64Max : Nat := UInt64.size - 1

/-- The four scalar item sizes. -/
inductive Width where
  | byte
  | half
  | word
  | double
  deriving DecidableEq, Repr

namespace Width

/-- The base-two logarithm of the byte count. -/
def exponent : Width → Nat
  | byte => 0
  | half => 1
  | word => 2
  | double => 3

/-- How many bytes a width has. -/
def bytes : Width → Nat
  | byte => 1
  | half => 2
  | word => 4
  | double => 8

/-- The name of a width. -/
def name : Width → String
  | byte => "byte"
  | half => "halfword"
  | word => "word"
  | double => "doubleword"

/-- The width of so many bytes. -/
def ofBytes? : Nat → Option Width
  | 1 => some byte
  | 2 => some half
  | 4 => some word
  | 8 => some double
  | _ => none

/-- The width of two to the `exponent` bytes. -/
def ofExponent? : Nat → Option Width
  | 0 => some byte
  | 1 => some half
  | 2 => some word
  | 3 => some double
  | _ => none

theorem bytes_eq_shiftLeft (w : Width) : w.bytes = 1 <<< w.exponent := by
  cases w <;> rfl

theorem bytes_pos (w : Width) : 0 < w.bytes := by
  cases w <;> decide

theorem bytes_le (w : Width) : w.bytes ≤ 8 := by
  cases w <;> decide

@[simp] theorem ofBytes?_bytes (w : Width) : ofBytes? w.bytes = some w := by
  cases w <;> rfl

@[simp] theorem ofExponent?_exponent (w : Width) : ofExponent? w.exponent = some w := by
  cases w <;> rfl

/-- The bits an aligned value has clear. -/
def lowMask (w : Width) : Nat := w.bytes - 1

/-- A multiple of the width. -/
def IsAligned (w : Width) (value : Nat) : Prop := value % w.bytes = 0

instance (w : Width) (value : Nat) : Decidable (w.IsAligned value) :=
  inferInstanceAs (Decidable (value % w.bytes = 0))

/-- Adds the mask and clears the low bits, all in one 64-bit word: the next multiple of the width
as long as the sum still fits the word. -/
def alignUp (w : Width) (value : Nat) : Nat :=
  (value + w.lowMask) &&& (word64Max ^^^ w.lowMask)

@[simp] theorem alignUp_zero (w : Width) : w.alignUp 0 = 0 := by
  cases w <;> decide

end Width

end MipsMemory
