import Mathlib.Data.List.Chain
import MipsMemory.Proofs.Allocator.Effect

/-!
How allocations fill an area. Addresses are compared as exact numbers, not modulo the address space.
Main statement: after any run the allocations of an area that are not empty lie one after another
from its base on, less than eight bytes apart, and end inside the region. The gap stays that small
over any chain of alignments since the next multiple of eight is a barrier to all of them.
-/

namespace MipsMemory

/-- One past the last byte, as an exact number. -/
def Allocation.finish (x : Allocation) : Nat := x.address.toNat + x.size.toNat

/-- How many bytes alignment may skip before an allocation. -/
def Area.slack : Area → Nat
  | .segment _ => 7
  | .externs => 0

/-- Allocations that fill a region, from its base up to an offset. -/
structure Packed (slack : Nat) (region : Region) (offset : Nat) (xs : List Allocation) :
    Prop where
  first : ∀ x ∈ xs.head?, x.address.toNat = region.base.toNat
  next : xs.IsChain fun x y =>
    x.finish ≤ y.address.toNat ∧ y.address.toNat ≤ x.finish + slack
  within : ∀ x ∈ xs, x.finish ≤ region.base.toNat + region.capacity
  last : ∀ x ∈ xs.getLast?,
    x.finish ≤ region.base.toNat + offset ∧ region.base.toNat + offset ≤ x.finish + slack
  empty : xs = [] → offset = 0

/-- The allocations that take up memory. -/
def occupied (xs : List Allocation) : List Allocation := xs.filter fun x => x.size ≠ 0

@[simp]
theorem occupied_nil : occupied [] = [] := rfl

theorem occupied_append (xs ys : List Allocation) :
    occupied (xs ++ ys) = occupied xs ++ occupied ys :=
  List.filter_append ..

@[simp]
theorem occupied_singleton_zero (s : Segment) (address : UInt32) :
    occupied [⟨s, address, 0⟩] = [] := rfl

theorem occupied_singleton {x : Allocation} (h : x.size ≠ 0) : occupied [x] = [x] := by
  simp [occupied, h]

/-! ## The barrier -/

/-- The furthest offset that alignment can lead to from where an area is filled. -/
def Area.barrier : Area → Nat → Nat
  | .segment _, filled => Width.double.alignUp filled
  | .externs, filled => filled

theorem Area.le_barrier (area : Area) {filled : Nat} (h : filled + 7 ≤ word64Max) :
    filled ≤ area.barrier filled := by
  cases area with
  | segment s => exact Width.double.le_alignUp h
  | externs => exact Nat.le_refl _

theorem Area.barrier_le (area : Area) {filled : Nat} (h : filled + 7 ≤ word64Max) :
    area.barrier filled ≤ filled + area.slack := by
  cases area with
  | segment s => exact Nat.le_of_lt_succ (Width.double.alignUp_lt h)
  | externs => exact Nat.le_refl _

/-! ## Lists that are filled to an offset -/

/-- Packed up to exactly the end of the last allocation, with no slack left over. -/
structure Filled (area : Area) (region : Region) (filled : Nat) (xs : List Allocation) : Prop
    extends Packed area.slack region filled xs where
  tight : ∀ x ∈ xs.getLast?, x.finish = region.base.toNat + filled
  inside : filled + 7 ≤ word64Max

namespace Filled

variable {area : Area} {region : Region} {filled : Nat} {xs : List Allocation}

theorem nil (area : Area) (region : Region) : Filled area region 0 [] where
  first := by simp
  next := .nil
  within := by simp
  last := by simp
  empty := fun _ => rfl
  tight := by simp
  inside := by decide

/-- One more allocation, not before the end and not beyond the barrier. -/
theorem push (h : Filled area region filled xs) (hcap : region.capacity ≤ UInt32.size)
    {x : Allocation} {start : Nat} (hx : x.address.toNat = region.base.toNat + start)
    (hle : filled ≤ start) (hbarrier : start ≤ area.barrier filled)
    (hroom : start + x.size.toNat ≤ region.capacity) :
    Filled area region (start + x.size.toNat) (xs ++ [x]) := by
  have hslack := area.barrier_le h.inside
  have hfinish : x.finish = region.base.toNat + (start + x.size.toNat) := by
    rw [Allocation.finish, hx, Nat.add_assoc]
  have htight : ∀ y ∈ (xs ++ [x]).getLast?,
      y.finish = region.base.toNat + (start + x.size.toNat) := by
    simp only [List.getLast?_append, List.getLast?_singleton, Option.some_or, Option.mem_def,
      Option.some.injEq]
    rintro _ rfl
    exact hfinish
  refine ⟨⟨?_, ?_, ?_, fun y hy => ?_, by simp⟩, htight, ?_⟩
  · -- only the very first allocation meets an empty list, and then nothing is skipped
    cases xs with
    | nil =>
      have hempty := h.empty rfl
      have hzero : area.barrier 0 = 0 := by cases area <;> simp [Area.barrier]
      rw [hempty, hzero] at hbarrier
      simp only [List.nil_append, List.head?_cons, Option.mem_def, Option.some.injEq]
      rintro _ rfl
      omega
    | cons y ys => simpa using h.first
  · refine h.next.append (.singleton _) fun y hy z hz => ?_
    have hy := h.tight y hy
    simp only [List.head?_cons, Option.mem_def, Option.some.injEq] at hz
    subst hz
    omega
  · intro y hy
    rcases List.mem_append.mp hy with hy | hy
    · exact h.within y hy
    · rw [List.mem_singleton.mp hy]
      omega
  · rw [htight y hy]
    omega
  · rw [word64Max_eq]
    simp only [UInt32.size] at hcap
    omega

/-- Alignment up to the barrier keeps a list packed. -/
theorem packed (h : Filled area region filled xs) {offset : Nat} (hle : filled ≤ offset)
    (hbarrier : offset ≤ area.barrier filled) : Packed area.slack region offset xs where
  first := h.first
  next := h.next
  within := h.within
  last := by
    intro x hx
    have hslack := area.barrier_le h.inside
    rw [h.tight x hx]
    omega
  empty := by
    intro hxs
    have hempty := h.empty hxs
    have hzero : area.barrier 0 = 0 := by cases area <;> simp [Area.barrier]
    rw [hempty, hzero] at hbarrier
    exact Nat.le_zero.mp hbarrier

end Filled

/-! ## Items -/

theorem Cursor.toNat_addressOf {c : Cursor} {offset : Nat}
    (h : c.region.base.toNat + offset < UInt32.size) :
    (c.addressOf offset).toNat = c.region.base.toNat + offset :=
  UInt32.toNat_ofNat_of_lt' h

theorem Width.toNat_ofNat_bytes (w : Width) : (UInt32.ofNat w.bytes).toNat = w.bytes := by
  cases w <;> rfl

/-- An item ends before all items do. -/
theorem Width.mul_add_bytes_le (w : Width) {i count : Nat} (h : i < count) :
    i * w.bytes + w.bytes ≤ w.bytes * count := by
  rw [← Nat.succ_mul, Nat.mul_comm]
  exact Nat.mul_le_mul_left _ h

namespace Allocator

/-- One more allocation at an offset: its address does not wrap, as it has at least one byte. -/
theorem filled_append {area : Area} {c : Cursor} (hc : c.Bounded) {filled : Nat}
    {xs : List Allocation} (h : Filled area c.region filled xs) (s : Segment) {size : UInt32}
    (hsize : 0 < size.toNat) {start : Nat} (hle : filled ≤ start)
    (hbarrier : start ≤ area.barrier filled)
    (hroom : start + size.toNat ≤ c.region.capacity) :
    Filled area c.region (start + size.toNat) (xs ++ [⟨s, c.addressOf start, size⟩]) := by
  have hend := hc.end_le
  have haddress : (c.addressOf start).toNat = c.region.base.toNat + start :=
    Cursor.toNat_addressOf (by omega)
  exact h.push (x := ⟨s, _, size⟩) hc.capacity_le haddress hle hbarrier hroom

theorem items_succ (s : Segment) (c : Cursor) (width : Width) (first count : Nat) :
    items s c width first (count + 1) =
      items s c width first count ++
        [⟨s, c.addressOf (first + width.bytes * count), UInt32.ofNat width.bytes⟩] := by
  simp [items, List.range_succ, Nat.mul_comm]

theorem occupied_items (s : Segment) (c : Cursor) (width : Width) (first count : Nat) :
    occupied (items s c width first count) = items s c width first count := by
  refine List.filter_eq_self.mpr fun x hx => ?_
  obtain ⟨i, -, rfl⟩ := List.mem_map.mp hx
  cases width <;> rfl

/-- Items fill an area one by one: after the first each starts where the one before ended. -/
theorem filled_items {s : Segment} {c : Cursor} (hc : c.Bounded) {filled : Nat}
    {xs : List Allocation} (h : Filled (.segment s) c.region filled xs) {width : Width}
    {first : Nat} (hle : filled ≤ first) (hbarrier : first ≤ (Area.segment s).barrier filled)
    (count : Nat) (hroom : first + width.bytes * (count + 1) ≤ c.region.capacity) :
    Filled (.segment s) c.region (first + width.bytes * (count + 1))
      (xs ++ items s c width first (count + 1)) := by
  have hsize := width.toNat_ofNat_bytes
  have hpos : 0 < (UInt32.ofNat width.bytes).toNat := by
    rw [hsize]
    exact width.bytes_pos
  induction count with
  | zero =>
    have hone := filled_append hc h s hpos hle hbarrier (by simpa [hsize] using hroom)
    simpa [items, hsize] using hone
  | succ count ih =>
    rw [Nat.mul_succ, ← Nat.add_assoc] at hroom ⊢
    -- the next item starts right where the items so far end
    have hprevious := ih (by omega)
    have hnext := filled_append hc hprevious s hpos (Nat.le_refl _)
      ((Area.segment s).le_barrier hprevious.inside) (by rw [hsize]; exact hroom)
    rw [items_succ, ← List.append_assoc]
    rwa [hsize] at hnext

/-! ## Runs -/

/-- What every run keeps of an area: it is filled to some point, and alignment has led no further
than the barrier from there. -/
structure Filling (area : Area) (region : Region) (xs : List Allocation) (c : Cursor) :
    Prop where
  region_eq : c.region = region
  bounded : c.Bounded
  filled : ∃ filled, Filled area region filled (occupied xs) ∧ filled ≤ c.offset ∧
    c.offset ≤ area.barrier filled

theorem Effect.filling {area : Area} {region : Region} {xs ys : List Allocation} {c c' : Cursor}
    (h : Filling area region xs c) (heffect : Effect area c ys c') :
    Filling area region (xs ++ ys) c' := by
  obtain ⟨rfl, hc, filled, hfilled, hle, hbarrier⟩ := h
  refine ⟨heffect.region_eq, (heffect.bounded hc).1, ?_⟩
  rw [occupied_append]
  cases heffect with
  | idle => exact ⟨filled, by simpa using hfilled, hle, hbarrier⟩
  | select => exact ⟨filled, by simpa using hfilled, hle, hbarrier⟩
  | align s _ width =>
    have hmore := width.le_alignUp hc.add_seven_le
    have hstop := width.alignUp_le_alignUp_double hc.add_seven_le hfilled.inside hbarrier
    exact ⟨filled, by simpa using hfilled, Nat.le_trans hle hmore, hstop⟩
  | emit s _ width count room =>
    have hstart := hc.le_itemStart width
    have hstop : c.itemStart width ≤ (Area.segment s).barrier filled := by
      unfold Cursor.itemStart
      split
      · exact width.alignUp_le_alignUp_double hc.add_seven_le hfilled.inside hbarrier
      · exact hbarrier
    -- no items may still move the offset up, but then they take up nothing
    cases count with
    | zero =>
      refine ⟨filled, by simpa [items] using hfilled, ?_, ?_⟩
      all_goals simp only [Nat.mul_zero, Nat.add_zero]
      · exact Nat.le_trans hle hstart
      · exact hstop
    | succ count =>
      have hitems := filled_items hc hfilled (Nat.le_trans hle hstart) hstop count room
      rw [occupied_items]
      exact ⟨_, hitems, Nat.le_refl _, Area.le_barrier _ hitems.inside⟩
  | reserve _ _ bytes room =>
    by_cases hbytes : bytes = 0
    · subst hbytes
      exact ⟨filled, by simpa using hfilled, hle, hbarrier⟩
    · have hpos : 0 < bytes.toNat :=
        Nat.pos_of_ne_zero fun h => hbytes (UInt32.toNat_inj.mp h)
      have hnext := filled_append hc hfilled area.shown hpos hle hbarrier room
      refine ⟨_, ?_, Nat.le_refl _, Area.le_barrier _ hnext.inside⟩
      rw [occupied_singleton hbytes]
      exact hnext

theorem filling_fresh (m : MemoryMap) (area : Area) :
    Filling area (m.areaRegion area) [] ((fresh m).areaCursor area) := by
  have hbounded := areaCursor_fresh_bounded m area
  rw [areaCursor_fresh] at hbounded ⊢
  exact ⟨rfl, hbounded, 0, .nil _ _, Nat.le_refl _, Nat.zero_le _⟩

/-- A run fills an area as each of its steps does. -/
theorem filling_run (m : MemoryMap) (operations : List Operation) (area : Area) :
    Filling area (m.areaRegion area) (placed area operations ((fresh m).run operations).1)
      (((fresh m).run operations).2.areaCursor area) :=
  run_induction (Filling area (m.areaRegion area)) Effect.filling operations []
    (areaCursor_fresh_bounded m area).capacity_le (filling_fresh m area)

/-- After any calls on a fresh allocator, failed ones included, the allocations of each area that
take up memory fill its region without overlap and, but for alignment, without gaps. -/
theorem packed_placed (m : MemoryMap) (operations : List Operation) (area : Area) :
    let result := (fresh m).run operations
    Packed area.slack (m.areaRegion area) (result.2.areaCursor area).offset
      (occupied (placed area operations result.1)) := by
  obtain ⟨filled, hfilled, hle, hbarrier⟩ := (filling_run m operations area).filled
  exact hfilled.packed hle hbarrier

end Allocator

end MipsMemory
