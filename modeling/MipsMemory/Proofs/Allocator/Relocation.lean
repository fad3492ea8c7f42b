import MipsMemory.Proofs.Allocator.Advance

/-!
Moving a map. Two allocators over different maps are alike if each area is filled as far in one as
in the other. Main statement: as long as regions end below the top of the address space, what an
operation does under one map it does under another that has as much room, at the same distances from
the bases.
-/

namespace MipsMemory

open Allocator (Operation Outcome items answered)

/-- Every region ends before the end of the address space. -/
def MemoryMap.BelowTop (m : MemoryMap) : Prop :=
  ∀ area, (m.areaRegion area).base.toNat + (m.areaRegion area).capacity < UInt32.size

/-- The other map has at least as much room in every area, at whatever base. -/
def MemoryMap.FitsInto (m n : MemoryMap) : Prop :=
  ∀ area, (m.areaRegion area).capacity ≤ (n.areaRegion area).capacity

/-- The second allocation is the first one, at the same distance from another base. -/
structure Moved (r s : Region) (x y : Allocation) : Prop where
  segment_eq : y.segment = x.segment
  size_eq : y.size = x.size
  distance : ∃ distance, x.address.toNat = r.base.toNat + distance ∧
    y.address.toNat = s.base.toNat + distance

/-! ## Cursors -/

namespace Cursor

/-- Two cursors are as far into their regions, and the second region is no smaller. -/
structure Alike (c d : Cursor) : Prop where
  offset_eq : d.offset = c.offset
  autoAlign_eq : d.autoAlign = c.autoAlign
  capacity_le : c.region.capacity ≤ d.region.capacity

variable {shown : Segment} {c c' d : Cursor} {operation : Operation} {outcome : Outcome}

theorem Alike.itemStart_eq (h : c.Alike d) (width : Width) :
    d.itemStart width = c.itemStart width := by
  rw [itemStart, itemStart, h.offset_eq, h.autoAlign_eq]

theorem Alike.moved (h : c.Alike d)
    (hc : c.region.base.toNat + c.region.capacity < UInt32.size)
    (hd : d.region.base.toNat + d.region.capacity < UInt32.size) {offset : Nat}
    (hoffset : offset ≤ c.region.capacity) (size : UInt32) :
    Moved c.region d.region ⟨shown, c.addressOf offset, size⟩ ⟨shown, d.addressOf offset, size⟩ := by
  have hle := h.capacity_le
  exact ⟨rfl, rfl, offset, toNat_addressOf (by omega), toNat_addressOf (by omega)⟩

theorem Alike.moved_items (h : c.Alike d)
    (hc : c.region.base.toNat + c.region.capacity < UInt32.size)
    (hd : d.region.base.toNat + d.region.capacity < UInt32.size) {width : Width}
    {first count : Nat} (hroom : first + width.bytes * count ≤ c.region.capacity) :
    List.Forall₂ (Moved c.region d.region) (items shown c width first count)
      (items shown d width first count) := by
  refine List.forall₂_map_left_iff.mpr (List.forall₂_map_right_iff.mpr
    (List.forall₂_same.mpr fun i hi => h.moved hc hd ?_ _))
  have hlt : i * width.bytes ≤ count * width.bytes :=
    Nat.mul_le_mul_right _ (List.mem_range.mp hi).le
  rw [Nat.mul_comm] at hroom
  omega

/-- What an operation does with a cursor it does with any cursor that is alike. -/
theorem Advances.alike (hadvances : c.Advances shown operation outcome c') (h : c.Alike d)
    (hc : c.region.base.toNat + c.region.capacity < UInt32.size)
    (hd : d.region.base.toNat + d.region.capacity < UInt32.size) (hbounded : c.Bounded) :
    ∃ outcome' d', d.Advances shown operation outcome' d' ∧ c'.Alike d' ∧
      List.Forall₂ (Moved c.region d.region) (answered (.ok outcome))
        (answered (.ok outcome')) := by
  have hoffset := h.offset_eq
  have hle := h.capacity_le
  cases hadvances with
  | select s => exact ⟨_, _, .select s, ⟨hoffset, rfl, hle⟩, .nil⟩
  | align exponent width known room top =>
    refine ⟨_, _, .align exponent width known ?_ ?_, ⟨?_, rfl, hle⟩, .nil⟩
    · rw [hoffset]
      omega
    · rw [hoffset]
      omega
    · simp only [hoffset]
  | emit width count room =>
    have hstart := h.itemStart_eq width
    refine ⟨_, _, .emit width count ?_, ⟨?_, h.autoAlign_eq, hle⟩, ?_⟩
    · rw [hstart]
      omega
    · simp only [hstart]
    · rw [hstart]
      exact h.moved_items hc hd room
  | reserve bytes room =>
    refine ⟨_, _, .reserve bytes ?_, ⟨?_, h.autoAlign_eq, hle⟩, .cons ?_ .nil⟩
    · rw [hoffset]
      omega
    · simp only [hoffset]
    · rw [hoffset]
      exact h.moved hc hd hbounded.offset_le bytes
  | reserveExtern bytes room =>
    refine ⟨_, _, .reserveExtern bytes ?_, ⟨?_, h.autoAlign_eq, hle⟩, .cons ?_ .nil⟩
    · rw [hoffset]
      omega
    · simp only [hoffset]
    · rw [hoffset]
      exact h.moved hc hd hbounded.offset_le bytes

end Cursor

/-! ## Allocators -/

namespace Allocator

/-- The same segment is selected, and every area is filled as far. -/
structure Alike (a b : Allocator) : Prop where
  current_eq : b.current = a.current
  cursor : ∀ area, (a.areaCursor area).Alike (b.areaCursor area)

theorem alike_fresh {m n : MemoryMap} (h : m.FitsInto n) : (fresh m).Alike (fresh n) where
  current_eq := rfl
  cursor area := by
    rw [areaCursor_fresh, areaCursor_fresh]
    exact ⟨rfl, rfl, h area⟩

theorem Alike.setAreaCursor {a b : Allocator} (h : a.Alike b) {c d : Cursor} (hcd : c.Alike d)
    (area : Area) (current : Segment) :
    Alike { a.setAreaCursor area c with current := current }
      { b.setAreaCursor area d with current := current } where
  current_eq := rfl
  cursor other := by
    simp only [areaCursor_selected, areaCursor_setAreaCursor]
    split
    · exact hcd
    · exact h.cursor other

end Allocator

end MipsMemory
