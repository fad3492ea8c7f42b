import Mathlib.Algebra.BigOperators.Ring.Finset
import MipsMemory.Proofs.Allocator.Independence
import MipsMemory.Proofs.Allocator.Packing

/-!
How far one operation moves the cursor of its area. `Advances` lists everything that an operation
can do with a cursor, guards included. Main statements: an operation is carried out exactly if it
advances the cursor, and then what it reserves lies piece by piece, without gaps, right before where
the cursor is left.
-/

namespace MipsMemory

/-! ## Pieces without gaps -/

/-- All sizes together. -/
def totalSize (xs : List Allocation) : Nat := (xs.map (·.size.toNat)).sum

@[simp] theorem totalSize_nil : totalSize [] = 0 := rfl

@[simp] theorem totalSize_cons (x : Allocation) (xs : List Allocation) :
    totalSize (x :: xs) = x.size.toNat + totalSize xs := by
  simp [totalSize]

@[simp] theorem totalSize_append (xs ys : List Allocation) :
    totalSize (xs ++ ys) = totalSize xs + totalSize ys := by
  simp [totalSize]

/-- Each piece begins where the one before ends, the first at an offset of the region. Addresses are
reduced to 32 bits. -/
def Consecutive (region : Region) : Nat → List Allocation → Prop
  | _, [] => True
  | start, x :: xs =>
    x.address = UInt32.ofNat (region.base.toNat + start) ∧
      Consecutive region (start + x.size.toNat) xs

theorem consecutive_append {region : Region} {start : Nat} {xs ys : List Allocation} :
    Consecutive region start (xs ++ ys) ↔
      Consecutive region start xs ∧ Consecutive region (start + totalSize xs) ys := by
  induction xs generalizing start with
  | nil => simp [Consecutive]
  | cons x xs ih => simp [Consecutive, ih, Nat.add_assoc, and_assoc]

/-- Where no piece is empty and all fit below the top, no address is reduced. -/
theorem Consecutive.isChain {region : Region} {start : Nat} {xs : List Allocation}
    (h : Consecutive region start xs) (hpos : ∀ x ∈ xs, 0 < x.size.toNat)
    (htop : region.base.toNat + start + totalSize xs ≤ UInt32.size) :
    xs.IsChain fun x y => y.address.toNat = x.finish := by
  induction xs generalizing start with
  | nil => exact .nil
  | cons x xs ih =>
    obtain ⟨hx, hrest⟩ := h
    rw [totalSize_cons] at htop
    have hchain := ih hrest (fun y hy => hpos y (List.mem_cons_of_mem _ hy)) (by omega)
    cases xs with
    | nil => exact .singleton x
    | cons y ys =>
      have hxpos := hpos x List.mem_cons_self
      have hypos := hpos y (List.mem_cons_of_mem _ List.mem_cons_self)
      rw [totalSize_cons] at htop
      refine .cons_cons ?_ hchain
      rw [hrest.1, Allocation.finish, hx, UInt32.toNat_ofNat_of_lt' (by omega),
        UInt32.toNat_ofNat_of_lt' (by omega)]
      omega

namespace Allocator

theorem totalSize_items (shown : Segment) (c : Cursor) (width : Width) (first count : Nat) :
    totalSize (items shown c width first count) = width.bytes * count := by
  induction count with
  | zero => rfl
  | succ count ih =>
    rw [items_succ, totalSize_append, ih, totalSize_cons, totalSize_nil, width.toNat_ofNat_bytes,
      Nat.add_zero, Nat.mul_succ]

theorem consecutive_items (shown : Segment) (c : Cursor) (width : Width) (first count : Nat) :
    Consecutive c.region first (items shown c width first count) := by
  induction count with
  | zero => exact trivial
  | succ count ih =>
    rw [items_succ, consecutive_append, totalSize_items]
    exact ⟨ih, rfl, trivial⟩

end Allocator

/-! ## Operations on a cursor -/

open Allocator (Operation Outcome items answered)

namespace Cursor

variable {shown : Segment} {c c' : Cursor} {operation : Operation} {outcome : Outcome}

/-- Everything that an operation can do with the cursor of its area. -/
inductive Advances (shown : Segment) (c : Cursor) : Operation → Outcome → Cursor → Prop
  | select (s : Segment) : Advances shown c (.select s) .selected { c with autoAlign := true }
  | align (exponent : Nat) (width : Width) (known : Width.ofExponent exponent = .ok width)
      (room : width.alignUp c.offset ≤ c.region.capacity)
      (top : c.region.base.toNat + width.alignUp c.offset < UInt32.size) :
      Advances shown c (.align exponent) (.aligned (c.addressOf (width.alignUp c.offset)))
        { c with offset := width.alignUp c.offset, autoAlign := width != .byte }
  | emit (width : Width) (count : Nat)
      (room : c.itemStart width + width.bytes * count ≤ c.region.capacity) :
      Advances shown c (.emit width count)
        (.emitted (items shown c width (c.itemStart width) count))
        { c with offset := c.itemStart width + width.bytes * count }
  | reserve (bytes : UInt32) (room : c.offset + bytes.toNat ≤ c.region.capacity) :
      Advances shown c (.reserve bytes) (.reserved ⟨shown, c.addressOf c.offset, bytes⟩)
        { c with offset := c.offset + bytes.toNat }
  | reserveExtern (bytes : UInt32) (room : c.offset + bytes.toNat ≤ c.region.capacity) :
      Advances shown c (.reserveExtern bytes) (.reserved ⟨shown, c.addressOf c.offset, bytes⟩)
        { c with offset := c.offset + bytes.toNat }

/-- A total that a region holds is counted exactly. -/
theorem Bounded.saturated_eq (hc : c.Bounded) {k n : Nat} (h : k + n ≤ c.region.capacity) :
    saturated n = n := by
  have hcap := hc.capacity_le
  rw [saturated, word64Max_eq]
  simp only [UInt32.size] at hcap
  omega

theorem perform_eq_ok_iff (hc : c.Bounded) :
    c.perform shown operation = .ok (outcome, c') ↔
      c.Advances shown operation outcome c' := by
  constructor
  · intro h
    cases operation with
    | select s =>
      cases h
      exact .select s
    | align exponent =>
      obtain ⟨width, hwidth, h⟩ := bind_eq_ok_iff.mp h
      obtain ⟨⟨address, _⟩, halign, he⟩ := bind_eq_ok_iff.mp h
      cases he
      obtain ⟨room, top, rfl, rfl⟩ := align_eq_ok_iff.mp (mapError_eq_ok_iff.mp halign)
      exact .align exponent width hwidth room top
    | emit width count =>
      obtain ⟨⟨first, _⟩, hemit, he⟩ := bind_eq_ok_iff.mp h
      cases he
      obtain ⟨room, rfl, rfl⟩ := emit_eq_ok_iff.mp (mapError_eq_ok_iff.mp hemit)
      have hexact := saturated_eq_of_le hc.capacity_le room
      rw [hexact] at room ⊢
      exact .emit width count room
    | reserve bytes =>
      obtain ⟨⟨first, _⟩, hreserve, he⟩ := bind_eq_ok_iff.mp h
      cases he
      obtain ⟨room, rfl, rfl⟩ := reserve_eq_ok_iff.mp (mapError_eq_ok_iff.mp hreserve)
      exact .reserve bytes room
    | reserveExtern bytes =>
      obtain ⟨⟨first, _⟩, hreserve, he⟩ := bind_eq_ok_iff.mp h
      cases he
      obtain ⟨room, rfl, rfl⟩ := reserve_eq_ok_iff.mp (mapError_eq_ok_iff.mp hreserve)
      exact .reserveExtern bytes room
  · intro h
    cases h with
    | select s => rfl
    | align exponent width hwidth room top =>
      have halign := align_eq_ok_iff.mpr ⟨room, top, rfl, rfl⟩
      simp only [perform, hwidth, halign, ok_bind, mapError_ok]
      rfl
    | emit width count room =>
      have hexact := hc.saturated_eq room
      have hemit := emit_eq_ok_iff.mpr ⟨hexact.symm ▸ room, rfl, rfl⟩
      rw [hexact] at hemit
      simp only [perform, hemit, ok_bind, mapError_ok]
      rfl
    | reserve bytes room =>
      have hreserve := reserve_eq_ok_iff.mpr ⟨room, rfl, rfl⟩
      simp only [perform, hreserve, ok_bind, mapError_ok]
      rfl
    | reserveExtern bytes room =>
      have hreserve := reserve_eq_ok_iff.mpr ⟨room, rfl, rfl⟩
      simp only [perform, hreserve, ok_bind, mapError_ok]
      rfl

theorem step_of_advances (hc : c.Bounded) (h : c.Advances shown operation outcome c') :
    c.step shown operation = (.ok outcome, c') := by
  rw [step, (perform_eq_ok_iff hc).mpr h]

/-- What is reserved lies without gaps between two offsets, the second of which is where the cursor
is left. -/
theorem Advances.extent (hc : c.Bounded) (h : c.Advances shown operation outcome c') :
    ∃ first, c.offset ≤ first ∧ Consecutive c.region first (answered (.ok outcome)) ∧
      c'.offset = first + totalSize (answered (.ok outcome)) := by
  cases h with
  | select => exact ⟨c.offset, Nat.le_refl _, trivial, rfl⟩
  | align _ width =>
    exact ⟨width.alignUp c.offset, width.le_alignUp hc.add_seven_le, trivial, rfl⟩
  | emit width count =>
    refine ⟨c.itemStart width, hc.le_itemStart width, ?_, ?_⟩
    · exact Allocator.consecutive_items shown c width _ count
    · rw [answered, Allocator.totalSize_items]
  | reserve => exact ⟨c.offset, Nat.le_refl _, ⟨rfl, trivial⟩, by simp [answered]⟩
  | reserveExtern => exact ⟨c.offset, Nat.le_refl _, ⟨rfl, trivial⟩, by simp [answered]⟩

theorem Advances.segment_eq (h : c.Advances shown operation outcome c') {x : Allocation}
    (hx : x ∈ answered (.ok outcome)) : x.segment = shown := by
  cases h with
  | select | align => cases hx
  | emit =>
    obtain ⟨i, -, rfl⟩ := List.mem_map.mp hx
    rfl
  | reserve | reserveExtern =>
    rw [List.mem_singleton.mp hx]

/-! ## Sizes -/

theorem Bounded.itemStart_lt (hc : c.Bounded) (width : Width) :
    c.itemStart width < c.offset + width.bytes := by
  have hpos := width.bytes_pos
  unfold itemStart
  split
  · exact width.alignUp_lt hc.add_seven_le
  · omega

theorem itemStart_of_autoAlign_eq_false (h : c.autoAlign = false) (width : Width) :
    c.itemStart width = c.offset := by
  simp [itemStart, h]

/-- The bytes an operation may skip: less than the power of two that an alignment asks for, less
than the width before items and then none while automatic alignment is off, none otherwise. -/
def MaySkip (c : Cursor) (skipped : Nat) : Operation → Prop
  | .align exponent => skipped < 2 ^ exponent
  | .emit width _ => skipped < width.bytes ∧ (c.autoAlign = false → skipped = 0)
  | .select _ | .reserve _ | .reserveExtern _ => skipped = 0

end Cursor

/-- The bytes that an operation asks for. -/
def Allocator.Operation.size : Operation → Nat
  | .emit width count => width.bytes * count
  | .reserve bytes | .reserveExtern bytes => bytes.toNat
  | .select _ | .align _ => 0

/-- The cursor moves by the bytes that are asked for and those that may be skipped. -/
theorem Cursor.Advances.growth {shown : Segment} {c c' : Cursor} {operation : Operation}
    {outcome : Outcome} (hc : c.Bounded) (h : c.Advances shown operation outcome c') :
    ∃ skipped, c.MaySkip skipped operation ∧ c'.offset = c.offset + (operation.size + skipped) := by
  cases h with
  | select => exact ⟨0, rfl, rfl⟩
  | align exponent width known =>
    have hle := width.le_alignUp hc.add_seven_le
    have hlt := width.alignUp_lt hc.add_seven_le
    rw [width.bytes_eq_of_ofExponent known] at hlt
    refine ⟨width.alignUp c.offset - c.offset, ?_, ?_⟩
    · rw [MaySkip]
      omega
    · simp only [Allocator.Operation.size]
      omega
  | emit width count =>
    have hle := hc.le_itemStart width
    have hlt := hc.itemStart_lt width
    refine ⟨c.itemStart width - c.offset, ⟨by omega, fun hoff => ?_⟩, ?_⟩
    · rw [itemStart_of_autoAlign_eq_false hoff, Nat.sub_self]
    · simp only [Allocator.Operation.size]
      omega
  | reserve => exact ⟨0, rfl, rfl⟩
  | reserveExtern => exact ⟨0, rfl, rfl⟩

end MipsMemory
