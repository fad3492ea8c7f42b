import MipsMemory.Width

/-!
Rounding by masks is rounding by division. Main statements: below the top of a 64-bit word
`alignUp` answers the least multiple of a width that is not below its argument, and rounding again
to any width never passes the next multiple of eight. Every byte of an aligned item rounds down to
the item's start.
-/

namespace MipsMemory

theorem word64Max_eq : word64Max = 18446744073709551615 := rfl

namespace Width

theorem lowMask_le (w : Width) : w.lowMask ≤ 7 := by
  cases w <;> decide

/-- Clearing the low bits of a 64-bit number takes off its remainder. -/
theorem land_clear_lowMask (w : Width) {v : Nat} (h : v ≤ word64Max) :
    v &&& (word64Max ^^^ w.lowMask) = v - v % w.bytes := by
  have hmask : w.lowMask = 2 ^ w.exponent - 1 := by cases w <;> rfl
  have hbytes : w.bytes = 2 ^ w.exponent := by cases w <;> rfl
  have hv : v % 2 ^ 64 = v := Nat.mod_eq_of_lt (Nat.lt_succ_of_le h)
  have hsub : v - v % 2 ^ w.exponent = 2 ^ w.exponent * (v / 2 ^ w.exponent) := by
    have := Nat.div_add_mod v (2 ^ w.exponent)
    omega
  rw [hmask, hbytes, Nat.and_xor_distrib_left, show word64Max = 2 ^ 64 - 1 from rfl,
    Nat.and_two_pow_sub_one_eq_mod, Nat.and_two_pow_sub_one_eq_mod, hv, hsub]
  apply Nat.eq_of_testBit_eq
  intro i
  rw [Nat.testBit_xor, Nat.testBit_mod_two_pow, Nat.testBit_two_pow_mul,
    Nat.testBit_div_two_pow]
  by_cases hi : i < w.exponent
  · simp [hi, Nat.not_le.mpr hi]
  · simp [hi, Nat.not_lt.mp hi]

/-! ### The least multiple that is not below -/

/-- `alignUp` by division, as long as adding the mask stays within a word. -/
theorem alignUp_eq (w : Width) {v : Nat} (h : v + 7 ≤ word64Max) :
    w.alignUp v = v + w.lowMask - (v + w.lowMask) % w.bytes := by
  have hw := w.lowMask_le
  exact w.land_clear_lowMask (by omega)

theorem isAligned_alignUp (w : Width) {v : Nat} (h : v + 7 ≤ word64Max) :
    w.IsAligned (w.alignUp v) := by
  rw [IsAligned, w.alignUp_eq h]
  cases w <;> simp only [bytes, lowMask] <;> omega

theorem le_alignUp (w : Width) {v : Nat} (h : v + 7 ≤ word64Max) : v ≤ w.alignUp v := by
  rw [w.alignUp_eq h]
  cases w <;> simp only [bytes, lowMask] <;> omega

theorem alignUp_lt (w : Width) {v : Nat} (h : v + 7 ≤ word64Max) :
    w.alignUp v < v + w.bytes := by
  rw [w.alignUp_eq h]
  cases w <;> simp only [bytes, lowMask] <;> omega

/-- No multiple that is not below the argument is below what `alignUp` answers. -/
theorem alignUp_le_of_isAligned (w : Width) {v n : Nat} (h : v + 7 ≤ word64Max)
    (hn : w.IsAligned n) (hv : v ≤ n) : w.alignUp v ≤ n := by
  rw [IsAligned] at hn
  rw [w.alignUp_eq h]
  cases w <;> simp only [bytes, lowMask] at hn ⊢ <;> omega

theorem alignUp_of_isAligned (w : Width) {v : Nat} (h : v + 7 ≤ word64Max)
    (hv : w.IsAligned v) : w.alignUp v = v :=
  Nat.le_antisymm (w.alignUp_le_of_isAligned h hv (Nat.le_refl v)) (w.le_alignUp h)

/-! ### Chains of roundings -/

theorem bytes_dvd_bytes {w w' : Width} (h : w.bytes ≤ w'.bytes) : w.bytes ∣ w'.bytes := by
  revert h
  cases w <;> cases w' <;> decide

/-- What is aligned for a width is aligned for every smaller one. -/
theorem IsAligned.of_bytes_le {w w' : Width} {n : Nat} (hn : w'.IsAligned n)
    (h : w.bytes ≤ w'.bytes) : w.IsAligned n :=
  Nat.mod_eq_zero_of_dvd (Nat.dvd_trans (bytes_dvd_bytes h) (Nat.dvd_of_mod_eq_zero hn))

theorem isAligned_of_double (w : Width) {n : Nat} (h : double.IsAligned n) : w.IsAligned n :=
  h.of_bytes_le w.bytes_le

/-- Rounding stays as far below the top of a 64-bit word as its argument. -/
theorem alignUp_add_seven_le (w : Width) {v : Nat} (h : v + 7 ≤ word64Max) :
    w.alignUp v + 7 ≤ word64Max := by
  have htop : w.IsAligned (word64Max - 7) := by cases w <;> rfl
  have hle := w.alignUp_le_of_isAligned h htop (by omega)
  omega

/-- A rounding to a smaller width before makes no difference. -/
theorem alignUp_alignUp_of_le {w w' : Width} (h : w.bytes ≤ w'.bytes) {v : Nat}
    (hv : v + 7 ≤ word64Max) : w'.alignUp (w.alignUp v) = w'.alignUp v := by
  have hw := w.alignUp_add_seven_le hv
  have haligned := w'.isAligned_alignUp hv
  apply Nat.le_antisymm
  · apply w'.alignUp_le_of_isAligned hw haligned
    exact w.alignUp_le_of_isAligned hv (haligned.of_bytes_le h) (w'.le_alignUp hv)
  · apply w'.alignUp_le_of_isAligned hv (w'.isAligned_alignUp hw)
    exact Nat.le_trans (w.le_alignUp hv) (w'.le_alignUp hw)

/-- A rounding to a smaller width afterwards makes no difference either. -/
theorem alignUp_alignUp_of_ge {w w' : Width} (h : w'.bytes ≤ w.bytes) {v : Nat}
    (hv : v + 7 ≤ word64Max) : w'.alignUp (w.alignUp v) = w.alignUp v :=
  w'.alignUp_of_isAligned (w.alignUp_add_seven_le hv) ((w.isAligned_alignUp hv).of_bytes_le h)

theorem IsAligned.add {w : Width} {n k : Nat} (hn : w.IsAligned n) (hk : w.IsAligned k) :
    w.IsAligned (n + k) := by
  rw [IsAligned] at hn hk ⊢
  rw [Nat.add_mod, hn, hk, Nat.zero_mod]

/-- A multiple of eight is a barrier to every rounding: what is not above it stays so. -/
theorem alignUp_le_alignUp_double (w : Width) {v n : Nat} (hv : v + 7 ≤ word64Max)
    (hn : n + 7 ≤ word64Max) (h : v ≤ double.alignUp n) : w.alignUp v ≤ double.alignUp n :=
  w.alignUp_le_of_isAligned hv (w.isAligned_of_double (double.isAligned_alignUp hn)) h

/-! ### Rounding down -/

/-- The start of the aligned item that a byte belongs to. -/
def alignDown (w : Width) (byte : Nat) : Nat := byte / w.bytes * w.bytes

theorem isAligned_alignDown (w : Width) (byte : Nat) : w.IsAligned (w.alignDown byte) :=
  Nat.mul_mod_left _ _

theorem alignDown_le (w : Width) (byte : Nat) : w.alignDown byte ≤ byte :=
  Nat.div_mul_le_self _ _

/-- Setting the low bits leads to the last byte of the item. -/
theorem or_lowMask (w : Width) (byte : Nat) : byte ||| w.lowMask = w.alignDown byte + w.lowMask := by
  have hmask : w.lowMask = 2 ^ w.exponent - 1 := by cases w <;> rfl
  have hbytes : w.bytes = 2 ^ w.exponent := by cases w <;> rfl
  have hlt : 2 ^ w.exponent - 1 < 2 ^ w.exponent := Nat.sub_lt (Nat.two_pow_pos _) Nat.one_pos
  rw [alignDown, hmask, hbytes, Nat.mul_comm, Nat.two_pow_add_eq_or_of_lt hlt]
  apply Nat.eq_of_testBit_eq
  intro i
  simp only [Nat.testBit_or, Nat.testBit_two_pow_mul, Nat.testBit_div_two_pow,
    Nat.testBit_two_pow_sub_one]
  by_cases hi : i < w.exponent
  · simp [hi]
  · simp [hi, Nat.not_lt.mp hi]

theorem lt_alignDown_add (w : Width) (byte : Nat) : byte < w.alignDown byte + w.bytes := by
  unfold alignDown
  cases w <;> simp only [bytes] <;> omega

/-- Any width rounds down no further than a doubleword does. -/
theorem alignDown_double_le (w : Width) (byte : Nat) : double.alignDown byte ≤ w.alignDown byte := by
  unfold alignDown
  cases w <;> simp only [bytes] <;> omega

/-- Two different items do not overlap: the first ends before the second starts. -/
theorem IsAligned.add_bytes_le {w : Width} {n k : Nat} (hn : w.IsAligned n) (hk : w.IsAligned k)
    (h : n < k) : n + w.bytes ≤ k := by
  rw [IsAligned] at hn hk
  cases w <;> simp only [bytes] at hn hk ⊢ <;> omega

/-- After an item the next one starts. -/
theorem IsAligned.next {w : Width} {n : Nat} (hn : w.IsAligned n) : w.IsAligned (n + w.bytes) := by
  rw [IsAligned] at hn ⊢
  rw [Nat.add_mod_right, hn]

theorem IsAligned.alignDown_add {w : Width} {n : Nat} (hn : w.IsAligned n) {i : Nat}
    (hi : i < w.bytes) : w.alignDown (n + i) = n := by
  rw [IsAligned] at hn
  unfold alignDown
  cases w <;> simp only [bytes] at hn hi ⊢ <;> omega

theorem IsAligned.le_alignDown {w : Width} {n byte : Nat} (hn : w.IsAligned n) (h : n ≤ byte) :
    n ≤ w.alignDown byte := by
  rw [IsAligned] at hn
  unfold alignDown
  cases w <;> simp only [bytes] at hn ⊢ <;> omega

/-- The addresses of an aligned item's bytes do not wrap around. -/
theorem IsAligned.toNat_add {w : Width} {address : UInt32} (h : w.IsAligned address.toNat) {i : Nat}
    (hi : i < w.bytes) : (address + UInt32.ofNat i).toNat = address.toNat + i := by
  have haddress := address.toNat_lt_size
  have hsize : w.IsAligned UInt32.size := by cases w <;> rfl
  have hend := h.add_bytes_le hsize haddress
  have hvalue : (UInt32.ofNat i).toNat = i := UInt32.toNat_ofNat_of_lt' (by omega)
  rw [UInt32.toNat_add, hvalue]
  exact Nat.mod_eq_of_lt (show address.toNat + i < UInt32.size by omega)

end Width

end MipsMemory
