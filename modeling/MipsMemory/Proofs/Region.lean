import MipsMemory.MemoryMap
import MipsMemory.Proofs.Alignment

/-!
Regions as intervals of exact byte addresses. Main statements: a region up to an end holds the bytes
from its base to that end, and no region of a map reaches past the top of the address space.
-/

namespace MipsMemory

namespace Region

/-- The byte at an exact address belongs to the region. -/
def Holds (r : Region) (byte : Nat) : Prop :=
  r.base.toNat ≤ byte ∧ byte < r.base.toNat + r.capacity

instance (r : Region) (byte : Nat) : Decidable (r.Holds byte) :=
  inferInstanceAs (Decidable (_ ∧ _))

@[simp] theorem holds_upTo {base : UInt32} {finish byte : Nat} :
    (upTo base finish).Holds byte ↔ base.toNat ≤ byte ∧ byte < finish := by
  simp only [upTo, Holds]
  omega

theorem base_add_capacity_upTo_le (base : UInt32) {finish : Nat} (h : finish ≤ UInt32.size) :
    (upTo base finish).base.toNat + (upTo base finish).capacity ≤ UInt32.size := by
  have := base.toNat_lt_size
  simp only [upTo]
  omega

end Region

namespace MemoryMap

/-- The end of a word is the multiple of four that follows. -/
theorem wordEnd_eq (address : UInt32) : wordEnd address = address.toNat / 4 * 4 + 4 := by
  have hor : address.toNat ||| 3 = address.toNat / 4 * 4 + 3 := Width.word.or_lowMask _
  simp [wordEnd, hor]

theorem isAligned_wordEnd (address : UInt32) : Width.word.IsAligned (wordEnd address) := by
  rw [Width.IsAligned, wordEnd_eq]
  simp only [Width.bytes]
  omega

theorem lt_wordEnd (address : UInt32) : address.toNat < wordEnd address := by
  rw [wordEnd_eq]
  omega

theorem wordEnd_le (address : UInt32) : wordEnd address ≤ UInt32.size := by
  have := address.toNat_lt_size
  rw [wordEnd_eq]
  simp only [UInt32.size] at this ⊢
  omega

/-- Every segment's region ends at or below the top of the address space. -/
theorem region_end_le (m : MemoryMap) (s : Segment) :
    (m.region s).base.toNat + (m.region s).capacity ≤ UInt32.size := by
  have hheap := m.heapBase.toNat_lt_size
  cases s with
  | text => exact Region.base_add_capacity_upTo_le _ (wordEnd_le _)
  | data =>
    refine Region.base_add_capacity_upTo_le _ ?_
    unfold staticDataEnd
    split <;> omega
  | kernelText => exact Region.base_add_capacity_upTo_le _ (wordEnd_le _)
  | kernelData => exact Region.base_add_capacity_upTo_le _ (wordEnd_le _)

theorem externRegion_end_le (m : MemoryMap) :
    m.externRegion.base.toNat + m.externRegion.capacity ≤ UInt32.size :=
  Region.base_add_capacity_upTo_le _ m.externs.last.toNat_lt_size

end MemoryMap

end MipsMemory
