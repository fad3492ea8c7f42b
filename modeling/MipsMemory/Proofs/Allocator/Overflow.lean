import MipsMemory.Proofs.Allocator.Advance

/-!
When there is room. What an operation needs is counted in exact numbers, with the bytes it skips for
alignment. Main statement: in every state that operations lead to, an operation fails for want of
room exactly if it needs more bytes than its area has left, and reports both numbers as they are, the
first cut off at a 64-bit word; otherwise it moves its area on by what it needs, but for an alignment
that would lead to the end of the address space.
-/

namespace MipsMemory

open Allocator (Operation Outcome)

/-! ## What is needed -/

/-- The bytes from a value on to the next multiple of a unit. -/
def padding (unit value : Nat) : Nat := (unit - value % unit) % unit

theorem Width.alignUp_eq_add_padding (w : Width) {v : Nat} (h : v + 7 ≤ word64Max) :
    w.alignUp v = v + padding w.bytes v := by
  rw [w.alignUp_eq h, padding]
  cases w <;> simp only [bytes, lowMask] <;> omega

theorem Width.padding_le (w : Width) (v : Nat) : padding w.bytes v ≤ 7 := by
  have hlt : padding w.bytes v < w.bytes := Nat.mod_lt _ w.bytes_pos
  have := w.bytes_le
  omega

/-- An operation that aligns does so to one of the widths. -/
def Allocator.Operation.NamesWidth (operation : Operation) : Prop :=
  ∀ exponent, operation = .align exponent → exponent ≤ 3

theorem Allocator.Operation.NamesWidth.exists_ofExponent {exponent : Nat}
    (h : (Operation.align exponent).NamesWidth) : ∃ w, Width.ofExponent exponent = .ok w :=
  Width.exists_ofExponent (h exponent rfl)

namespace Cursor

/-- The bytes that an operation needs from where the cursor is, those it skips included. No bound
is put on the count of items. -/
def need (c : Cursor) : Operation → Nat
  | .align exponent => padding (2 ^ exponent) c.offset
  | .emit width count =>
    (if c.autoAlign then padding width.bytes c.offset else 0) + width.bytes * count
  | .reserve bytes | .reserveExtern bytes => bytes.toNat
  | .select _ => 0

/-- An alignment that would lead to one past the last address there is. -/
def AlignsToTop (c : Cursor) (operation : Operation) : Prop :=
  (∃ exponent, operation = .align exponent) ∧
    c.region.base.toNat + (c.offset + c.need operation) = UInt32.size

variable {shown : Segment} {c : Cursor} {operation : Operation}

theorem Bounded.itemStart_eq (hc : c.Bounded) (width : Width) :
    c.itemStart width = c.offset + if c.autoAlign then padding width.bytes c.offset else 0 := by
  unfold itemStart
  split
  · exact width.alignUp_eq_add_padding hc.add_seven_le
  · rfl

theorem need_align {exponent : Nat} {width : Width} (h : Width.ofExponent exponent = .ok width) :
    c.need (.align exponent) = padding width.bytes c.offset := by
  rw [need, width.bytes_eq_of_ofExponent h]

theorem Bounded.available_le (hc : c.Bounded) : c.available ≤ UInt32.size :=
  Nat.le_trans (Nat.sub_le _ _) hc.capacity_le

/-! ## Operations on a cursor -/

/-- Without room the report is exact, however large the count: what is cut off on the way could not
have fitted, and what is reported is cut off once more at the end. -/
theorem perform_of_available_lt (hc : c.Bounded) (hwidth : operation.NamesWidth)
    (h : c.available < c.need operation) :
    c.perform shown operation =
      .error (.allocationOverflow shown (min (c.need operation) word64Max) c.available) := by
  have hoffset := hc.offset_le
  have hcap := hc.capacity_le
  have hword : UInt32.size + 7 ≤ word64Max := by decide
  unfold available at h
  cases operation with
  | select s => exact absurd h (Nat.not_lt_zero _)
  | align exponent =>
    obtain ⟨width, hw⟩ := hwidth.exists_ofExponent
    rw [need_align hw] at h ⊢
    have hsmall := width.padding_le c.offset
    have haligned := width.alignUp_eq_add_padding hc.add_seven_le
    have hshort : c.region.capacity < width.alignUp c.offset := by omega
    have hrequested : width.alignUp c.offset - c.offset =
        min (padding width.bytes c.offset) word64Max := by omega
    simp only [perform, hw, ok_bind, align, if_pos hshort, hrequested]
    rfl
  | emit width count =>
    have hstart := hc.itemStart_eq width
    simp only [need] at h ⊢
    have hshort : ¬ c.itemStart width + saturated (width.bytes * count) ≤ c.region.capacity := by
      unfold saturated
      omega
    have hrequested :
        saturated (c.itemStart width - c.offset + saturated (width.bytes * count)) =
          min ((if c.autoAlign then padding width.bytes c.offset else 0) + width.bytes * count)
            word64Max := by
      unfold saturated
      omega
    simp only [perform, emit, if_neg hshort, hrequested]
    rfl
  | reserve bytes | reserveExtern bytes =>
    simp only [need] at h ⊢
    have hbytes := bytes.toNat_lt_size
    have hshort : ¬ c.offset + bytes.toNat ≤ c.region.capacity := by omega
    have hrequested : min bytes.toNat word64Max = bytes.toNat := by omega
    simp only [perform, reserve, if_neg hshort, hrequested]
    rfl

/-- With room an operation is carried out, unless it aligns to the top. -/
theorem exists_advances (hc : c.Bounded) (hwidth : operation.NamesWidth)
    (hroom : c.need operation ≤ c.available) (htop : ¬ c.AlignsToTop operation) :
    ∃ outcome c', c.Advances shown operation outcome c' ∧
      c'.offset = c.offset + c.need operation := by
  have hoffset := hc.offset_le
  have hend := hc.end_le
  unfold available at hroom
  cases operation with
  | select s => exact ⟨_, _, .select s, rfl⟩
  | align exponent =>
    obtain ⟨width, hw⟩ := hwidth.exists_ofExponent
    have haligned := width.alignUp_eq_add_padding hc.add_seven_le
    rw [AlignsToTop, and_iff_right ⟨exponent, rfl⟩] at htop
    rw [need_align hw] at hroom htop ⊢
    exact ⟨_, _, .align exponent width hw (by omega) (by omega), haligned⟩
  | emit width count =>
    have hstart := hc.itemStart_eq width
    simp only [need] at hroom ⊢
    exact ⟨_, _, .emit width count (by omega), by simp only; omega⟩
  | reserve bytes =>
    simp only [need] at hroom
    exact ⟨_, _, .reserve bytes (by omega), rfl⟩
  | reserveExtern bytes =>
    simp only [need] at hroom
    exact ⟨_, _, .reserveExtern bytes (by omega), rfl⟩

theorem perform_of_alignsToTop (hc : c.Bounded) (hwidth : operation.NamesWidth)
    (hroom : c.need operation ≤ c.available) (htop : c.AlignsToTop operation) :
    c.perform shown operation = .error (.addressSpaceExhausted shown) := by
  obtain ⟨⟨exponent, rfl⟩, htop⟩ := htop
  obtain ⟨width, hw⟩ := hwidth.exists_ofExponent
  have hoffset := hc.offset_le
  have haligned := width.alignUp_eq_add_padding hc.add_seven_le
  unfold available at hroom
  rw [need_align hw] at hroom htop
  have hfits : ¬ c.region.capacity < width.alignUp c.offset := by omega
  have hnone : ¬ c.region.base.toNat + width.alignUp c.offset < UInt32.size := by omega
  simp only [perform, hw, ok_bind, align, if_neg hfits, addressAt, if_neg hnone]
  rfl

end Cursor

namespace Allocator

/-! ## Reachable states -/

/-- In every state that operations lead to, an operation whose area has less left than it needs
fails, leaves the allocator alone and reports both numbers, the first of which is still the larger
one when it is cut off at a 64-bit word. An operation that needs no more than is left is carried out
and moves its area on by exactly what it needs; only an alignment to the top of the address space
fails, as no address is left. -/
theorem room_decides (m : MemoryMap) (earlier : List Operation) {operation : Operation}
    (hwidth : operation.NamesWidth) :
    let a := ((fresh m).run earlier).2
    let area := operation.target a.current
    let c := a.areaCursor area
    let left := (m.areaRegion area).capacity - c.offset
    (left < c.need operation →
      a.step operation =
        (.error (.allocationOverflow area.shown (min (c.need operation) word64Max) left), a) ∧
      left < min (c.need operation) word64Max) ∧
    (c.need operation ≤ left → c.AlignsToTop operation →
      a.step operation = (.error (.addressSpaceExhausted area.shown), a)) ∧
    (c.need operation ≤ left → ¬ c.AlignsToTop operation →
      ∃ outcome a', a.step operation = (.ok outcome, a') ∧
        (a'.areaCursor area).offset = c.offset + c.need operation) := by
  intro a area c left
  have hextends : ((fresh m).areaCursor area).Extends c :=
    run_extends (areaCursor_fresh_bounded m area) earlier
  have hbounded := hextends.bounded
  have hleft : left = c.available := by
    have hregion : c.region = m.areaRegion area := by
      rw [hextends.region_eq, areaCursor_fresh]
      rfl
    rw [Cursor.available, hregion]
  rw [hleft]
  refine ⟨fun hshort => ⟨?_, ?_⟩, fun hroom htop => ?_, fun hroom htop => ?_⟩
  · exact step_of_perform_eq_error rfl (Cursor.perform_of_available_lt hbounded hwidth hshort)
  · have havailable := hbounded.available_le
    have hword : UInt32.size < word64Max := by decide
    omega
  · exact step_of_perform_eq_error rfl (Cursor.perform_of_alignsToTop hbounded hwidth hroom htop)
  · obtain ⟨outcome, c', hadvances, hoffset⟩ := Cursor.exists_advances hbounded hwidth hroom htop
    have hstep := Cursor.step_of_advances hbounded hadvances
    refine ⟨outcome, (a.step operation).2, Prod.ext ?_ rfl, ?_⟩
    · rw [answer_step rfl, hstep]
    · rw [areaCursor_step, if_pos rfl, hstep, hoffset]

/-- Three bytes are left below the top of the address space: too few for as many doublewords as a
word can count, enough for a halfword after a skipped byte, and not to be aligned away. -/
theorem room_decides_top :
    let m := { MemoryMap.standard with kdata := ⟨0xfffffff0, 0xffffffff⟩ }
    let a := ((fresh m).run [.select .kernelData, .emit .byte 13]).2
    let many := Operation.emit .double word64Max
    (many.NamesWidth ∧ (Operation.align 2).NamesWidth ∧ (Operation.emit .half 1).NamesWidth) ∧
      a.step many = (.error (.allocationOverflow .kernelData word64Max 3), a) ∧
      a.step (.align 2) = (.error (.addressSpaceExhausted .kernelData), a) ∧
      ∃ outcome a', a.step (.emit .half 1) = (.ok outcome, a') ∧ a'.offset .kernelData = 16 := by
  intro m a many
  have hmany : many.NamesWidth := nofun
  have halign : (Operation.align 2).NamesWidth := fun _ h => by cases h; decide
  have hhalf : (Operation.emit .half 1).NamesWidth := nofun
  have hcurrent : a.current = .kernelData := by decide +kernel
  have hcut : min ((a.cursor .kernelData).need many) word64Max = word64Max := by decide +kernel
  have hleft : (m.region .kernelData).capacity - (a.cursor .kernelData).offset = 3 := by
    decide +kernel
  obtain ⟨hshort, -⟩ := room_decides m [.select .kernelData, .emit .byte 13] hmany
  obtain ⟨-, htop, -⟩ := room_decides m [.select .kernelData, .emit .byte 13] halign
  obtain ⟨-, -, hroom⟩ := room_decides m [.select .kernelData, .emit .byte 13] hhalf
  refine ⟨⟨hmany, halign, hhalf⟩, ?_, ?_, ?_⟩
  · have h := (hshort (by decide +kernel)).1
    change a.step many = (.error (.allocationOverflow a.current
      (min ((a.cursor a.current).need many) word64Max)
      ((m.region a.current).capacity - (a.cursor a.current).offset)), a) at h
    rwa [hcurrent, hcut, hleft] at h
  · have h := htop (by decide +kernel) ⟨⟨2, rfl⟩, by decide +kernel⟩
    change a.step (.align 2) = (.error (.addressSpaceExhausted a.current), a) at h
    rwa [hcurrent] at h
  · obtain ⟨outcome, a', hstep, hoffset⟩ :=
      hroom (by decide +kernel) fun h => by cases h.1.choose_spec
    change (a'.cursor a.current).offset = _ at hoffset
    rw [hcurrent] at hoffset
    exact ⟨outcome, a', hstep, hoffset.trans (by decide +kernel)⟩

end Allocator

end MipsMemory
