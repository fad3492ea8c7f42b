import MipsMemory.Proofs.Allocator.Advance
import MipsMemory.Proofs.Allocator.AutoAlign

/-!
The next address. It belongs to the offset that the selected segment is filled to, and there is none
once that offset is the end of the address space. Main statement: in every state that operations lead
to, whatever is placed next begins at the next address, after the bytes skipped to align it; where
there is no next address the segment is full, and no later operation places a byte there or aligns.
-/

namespace MipsMemory

open Allocator (Operation Outcome)

/-- The operation asks for bytes or for an aligned address. -/
def Allocator.Operation.NeedsAddress (operation : Operation) : Prop :=
  0 < operation.size ∨ ∃ exponent, operation = .align exponent

namespace Cursor

variable {shown : Segment} {c d : Cursor} {operation : Operation} {outcome : Outcome}

/-! ## The end of the address space -/

/-- The region ends where the address space does, and is filled to its end. -/
structure AtTop (c : Cursor) : Prop where
  full : c.offset = c.region.capacity
  top : c.region.base.toNat + c.region.capacity = UInt32.size

theorem Bounded.atTop (hc : c.Bounded) (h : UInt32.size ≤ c.region.base.toNat + c.offset) :
    c.AtTop := by
  have hoffset := hc.offset_le
  have hend := hc.end_le
  exact ⟨by omega, by omega⟩

/-- No offset is moved back, so what is full stays full. -/
theorem AtTop.of_extends (h : c.AtTop) (hextends : c.Extends d) : d.AtTop := by
  have hfull := h.full
  have hle := hextends.offset_le
  have hroom := hextends.bounded.offset_le
  rw [hextends.region_eq] at hroom
  constructor
  · rw [hextends.region_eq]
    omega
  · rw [hextends.region_eq]
    exact h.top

/-- What an operation asks for fits into what is left of the region. -/
theorem Advances.offset_add_size_le (hc : c.Bounded) (h : c.Advances shown operation outcome d) :
    c.offset + operation.size ≤ c.region.capacity := by
  cases h with
  | select | align => exact hc.offset_le
  | emit width count room =>
    have hstart := hc.le_itemStart width
    simp only [Operation.size]
    omega
  | reserve bytes room | reserveExtern bytes room => exact room

/-- At the top there is neither room for a byte nor an address to align to. -/
theorem AtTop.exists_error (h : c.AtTop) (hc : c.Bounded) (hneeds : operation.NeedsAddress) :
    ∃ e, c.perform shown operation = .error e := by
  have hfull := h.full
  have htop := h.top
  cases hperform : c.perform shown operation with
  | error e => exact ⟨e, rfl⟩
  | ok result =>
    obtain ⟨outcome, d⟩ := result
    have hadvances := (perform_eq_ok_iff hc).mp hperform
    exfalso
    rcases hneeds with hsize | ⟨exponent, rfl⟩
    · have hroom := hadvances.offset_add_size_le hc
      omega
    · cases hadvances with
      | align _ width known room top =>
        have hle := width.le_alignUp hc.add_seven_le
        omega

end Cursor

namespace Allocator

variable {m : MemoryMap} {a : Allocator} {next : UInt32}

/-! ## Where calls begin -/

/-- Calls begin at an address, but for bytes that they skip: none before reserved bytes, fewer than
a width before items, and fewer than a power of two before an aligned address, which is the next
address afterwards. -/
structure BeginsAt (a : Allocator) (next : UInt32) : Prop where
  reserve : ∀ bytes x a', a.reserve bytes = .ok (x, a') → x.address = next
  emit : ∀ width count xs a', a.emit width count = .ok (xs, a') →
    ∃ skipped < width.bytes,
      a'.active.offset = a.active.offset + skipped + width.bytes * count ∧ xs.length = count ∧
      ∀ (i : Nat) (h : i < xs.length),
        xs[i].address.toNat = next.toNat + skipped + i * width.bytes
  align : ∀ exponent address a', a.align exponent = .ok (address, a') →
    ∃ skipped < 2 ^ exponent, a'.active.offset = a.active.offset + skipped ∧
      address.toNat = next.toNat + skipped ∧ a'.address = .ok address

theorem toNat_of_address (h : a.address = .ok next) :
    next.toNat = a.active.region.base.toNat + a.active.offset := by
  obtain ⟨htop, rfl⟩ := address_eq_ok_iff.mp h
  exact Cursor.toNat_addressOf htop

theorem beginsAt_of_address (hregion : a.active.region = m.region a.current)
    (hbounded : a.active.Bounded) (h : a.address = .ok next) : a.BeginsAt next := by
  have hnext := toNat_of_address h
  constructor
  case reserve =>
    intro bytes x a' hreserve
    obtain ⟨first, c, hc, rfl, -⟩ := reserve_eq_ok_iff.mp hreserve
    obtain ⟨-, rfl, rfl⟩ := Cursor.reserve_eq_ok_iff.mp hc
    exact (address_eq_ok_iff.mp h).2.symm
  case emit =>
    intro width count xs a' hemit
    have hfrom := emitsFrom_itemStart hregion hbounded hemit
    have hle := hbounded.le_itemStart width
    have hlt := hbounded.itemStart_lt width
    have hoffset := hfrom.offset
    refine ⟨a.active.itemStart width - a.active.offset, by omega, by omega, hfrom.length, ?_⟩
    intro i hi
    rw [hfrom.address i hi, ← hregion]
    omega
  case align =>
    intro exponent address a' halign
    obtain ⟨width, c, hwidth, hc, rfl⟩ := align_eq_ok_iff.mp halign
    obtain ⟨-, htop, rfl, rfl⟩ := Cursor.align_eq_ok_iff.mp hc
    have hle := width.le_alignUp hbounded.add_seven_le
    have hlt := width.alignUp_lt hbounded.add_seven_le
    rw [width.bytes_eq_of_ofExponent hwidth] at hlt
    refine ⟨width.alignUp a.active.offset - a.active.offset, by omega, ?_, ?_, ?_⟩
    · rw [active_setActive]
      simp only
      omega
    · rw [Cursor.toNat_addressOf htop]
      omega
    · refine address_eq_ok_iff.mpr ?_
      rw [active_setActive]
      exact ⟨htop, rfl⟩

/-! ## Reachable states -/

/-- If there is a next address, the next call begins there. If there is none, the selected segment
is filled exactly to the end of the address space, and from then on every operation that asks for
bytes or an alignment in that segment fails, whatever has been done in between. -/
theorem next_address_holds (m : MemoryMap) (earlier : List Operation) :
    let a := ((fresh m).run earlier).2
    (∀ next, a.address = .ok next → a.BeginsAt next) ∧
    ∀ e, a.address = .error e →
      a.active.AtTop ∧
      ∀ later operation,
        let b := (a.run later).2
        operation.target b.current = .segment a.current → operation.NeedsAddress →
          ∃ e, b.step operation = (.error e, b) := by
  intro a
  obtain ⟨hregion, hbounded⟩ := active_run m earlier
  constructor
  · intro next hnext
    exact beginsAt_of_address hregion hbounded hnext
  · intro e he
    have htop : a.active.AtTop := by
      refine hbounded.atTop (Nat.le_of_not_lt fun hlt => ?_)
      have hok := address_eq_ok_iff.mpr ⟨hlt, rfl⟩
      rw [he] at hok
      cases hok
    refine ⟨htop, ?_⟩
    intro later operation b htarget hneeds
    -- the cursor is followed by its segment, since another one may be selected by now
    have hselected : (a.areaCursor (.segment a.current)).Bounded := hbounded
    have hextends := run_extends hselected later
    obtain ⟨e, hperform⟩ := (htop.of_extends hextends).exists_error hextends.bounded hneeds
    exact ⟨e, step_of_perform_eq_error htarget hperform⟩

/-- Kernel data up to the last address there is: words begin three bytes after the next address, and
once the segment is full it takes no byte and no alignment, not even after a detour. -/
theorem next_address_holds_top :
    let m := { MemoryMap.standard with kdata := ⟨0xfffffff0, 0xffffffff⟩ }
    let a := ((fresh m).run [.select .kernelData, .emit .byte 5]).2
    let full := ((fresh m).run [.select .kernelData, .reserve 16]).2
    let b := (full.run [.align 0, .select .data, .emit .word 1, .select .kernelData]).2
    (a.address = .ok 0xfffffff5 ∧ a.BeginsAt 0xfffffff5 ∧
      answered (a.step (.emit .word 2)).1 =
        [⟨.kernelData, 0xfffffff8, 4⟩, ⟨.kernelData, 0xfffffffc, 4⟩]) ∧
    full.address = .error (.addressSpaceExhausted .kernelData) ∧ full.active.AtTop ∧
      (∃ e, b.step (.emit .byte 1) = (.error e, b)) ∧ ∃ e, b.step (.align 0) = (.error e, b) := by
  intro m a full b
  have hnext : a.address = .ok 0xfffffff5 := by decide +kernel
  have hnone : full.address = .error (.addressSpaceExhausted .kernelData) := by decide +kernel
  have hbegins := (next_address_holds m [.select .kernelData, .emit .byte 5]).1 _ hnext
  obtain ⟨htop, hfails⟩ := (next_address_holds m [.select .kernelData, .reserve 16]).2 _ hnone
  have hlater := hfails [.align 0, .select .data, .emit .word 1, .select .kernelData]
  refine ⟨⟨hnext, hbegins, by decide +kernel⟩, hnone, htop, ?_, ?_⟩
  · exact hlater (.emit .byte 1) (by decide +kernel) (.inl (by decide))
  · exact hlater (.align 0) (by decide +kernel) (.inr ⟨0, rfl⟩)

end Allocator

end MipsMemory
