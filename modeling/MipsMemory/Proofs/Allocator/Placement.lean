import MipsMemory.Proofs.Allocator.Independence
import MipsMemory.Proofs.Allocator.Packing

/-!
Where the allocations of a run lie. An allocation is compared by the exact addresses of its bytes,
so that one without bytes meets nothing. Main statements: what a run places in an area lies inside
the area's region, no two of its allocations there share a byte, and every byte of a region is
placed by some run.
-/

namespace MipsMemory

/-! ## Bytes of allocations -/

/-- No byte belongs to both. -/
def Region.Disjoint (r s : Region) : Prop := ∀ byte, r.Holds byte → ¬ s.Holds byte

theorem Region.Disjoint.symm {r s : Region} (h : r.Disjoint s) : s.Disjoint r :=
  fun byte hs hr => h byte hr hs

namespace Allocation

/-- The bytes an allocation takes up. -/
def region (x : Allocation) : Region := ⟨x.address, x.size.toNat⟩

theorem holds_region {x : Allocation} {byte : Nat} :
    x.region.Holds byte ↔ x.address.toNat ≤ byte ∧ byte < x.finish := Iff.rfl

theorem size_ne_zero {x : Allocation} {byte : Nat} (h : x.region.Holds byte) : x.size ≠ 0 := by
  intro hsize
  rw [holds_region, finish, hsize] at h
  exact Nat.not_lt_of_le h.1 h.2

/-- The first ends before the second starts. -/
def Before (x y : Allocation) : Prop := x.finish ≤ y.address.toNat

instance : Trans Before Before Before where
  trans {_ y _} hxy hyz := Nat.le_trans hxy (Nat.le_trans (Nat.le_add_right _ y.size.toNat) hyz)

theorem Before.disjoint {x y : Allocation} (h : x.Before y) : x.region.Disjoint y.region :=
  fun _ hx hy => Nat.not_lt_of_le (Nat.le_trans h hy.1) hx.2

end Allocation

theorem mem_occupied {x : Allocation} {xs : List Allocation} :
    x ∈ occupied xs ↔ x ∈ xs ∧ x.size ≠ 0 := by
  simp [occupied]

/-! ## Packed allocations -/

namespace Packed

variable {slack : Nat} {region : Region} {offset : Nat} {xs : List Allocation}

theorem pairwise_before (h : Packed slack region offset xs) : xs.Pairwise Allocation.Before :=
  List.isChain_iff_pairwise.mp (h.next.imp fun _ _ hxy => hxy.1)

theorem base_le (h : Packed slack region offset xs) {x : Allocation} (hx : x ∈ xs) :
    region.base.toNat ≤ x.address.toNat := by
  cases xs with
  | nil => cases hx
  | cons y ys =>
    have hy : y.address.toNat = region.base.toNat := h.first y rfl
    have hbefore := (List.pairwise_cons.mp h.pairwise_before).1
    rcases List.mem_cons.mp hx with rfl | hx
    · exact Nat.le_of_eq hy.symm
    · have hyx : y.address.toNat + y.size.toNat ≤ x.address.toNat := hbefore x hx
      omega

theorem holds (h : Packed slack region offset xs) {x : Allocation} (hx : x ∈ xs) {byte : Nat}
    (hbyte : x.region.Holds byte) : region.Holds byte :=
  ⟨Nat.le_trans (h.base_le hx) hbyte.1, Nat.lt_of_lt_of_le hbyte.2 (h.within x hx)⟩

end Packed

namespace Allocator

/-! ## Runs -/

theorem map_step (a : Allocator) (operation : Operation) : (a.step operation).2.map = a.map := by
  rw [step_eq]
  exact map_setAreaCursor a _ _

/-- A layout is made for the map that its allocator started from. -/
theorem map_run (a : Allocator) (operations : List Operation) :
    (a.run operations).2.map = a.map := by
  induction operations generalizing a with
  | nil => rfl
  | cons operation operations ih => exact (ih _).trans (a.map_step operation)

/-- The selected segment is filled within the bounds of its region. -/
theorem active_run (m : MemoryMap) (operations : List Operation) :
    ((fresh m).run operations).2.active.region =
        m.region ((fresh m).run operations).2.current ∧
      ((fresh m).run operations).2.active.Bounded :=
  have hfilling := filling_run m operations (.segment ((fresh m).run operations).2.current)
  ⟨hfilling.region_eq, hfilling.bounded⟩

section

variable {m : MemoryMap} {operations : List Operation} {area : Area}

/-- What a run places in an area lies inside its region. -/
theorem holds_of_mem_placed {x : Allocation}
    (hx : x ∈ placed area operations ((fresh m).run operations).1) {byte : Nat}
    (hbyte : x.region.Holds byte) : (m.areaRegion area).Holds byte := by
  obtain ⟨filled, hfilled, -⟩ := (filling_run m operations area).filled
  exact hfilled.holds (mem_occupied.mpr ⟨hx, Allocation.size_ne_zero hbyte⟩) hbyte

variable (m operations area)

/-- No two allocations of an area share a byte. -/
theorem pairwise_disjoint_placed :
    (placed area operations ((fresh m).run operations).1).Pairwise fun x y =>
      x.region.Disjoint y.region := by
  obtain ⟨filled, hfilled, -⟩ := (filling_run m operations area).filled
  refine (List.pairwise_filter.mp hfilled.pairwise_before).imp fun hbefore byte hx hy => ?_
  -- sharing a byte, both take up memory, and then one lies before the other
  have hxy := hbefore (by simpa using Allocation.size_ne_zero hx)
    (by simpa using Allocation.size_ne_zero hy)
  exact hxy.disjoint byte hx hy

end

/-! ## Emitted items -/

/-- Emitted items follow each other from where items of the width begin, all inside the region. -/
theorem mem_answered_emit {a : Allocator} (h : a.active.Bounded) {width : Width} {count : Nat}
    {x : Allocation} (hx : x ∈ answered (a.step (.emit width count)).1) :
    ∃ offset i, offset = a.active.itemStart width + i * width.bytes ∧
      offset + width.bytes ≤ a.active.region.capacity ∧
      x = ⟨a.current, a.active.addressOf offset, .ofNat width.bytes⟩ := by
  cases hp : a.perform (.emit width count) with
  | error e =>
    rw [step_of_error hp] at hx
    cases hx
  | ok result =>
    rw [step_of_ok hp] at hx
    obtain ⟨⟨xs, a'⟩, hemit, rfl⟩ := map_eq_ok_iff.mp hp
    obtain ⟨first, c, hc, rfl, rfl⟩ := emit_eq_ok_iff.mp hemit
    obtain ⟨hroom, rfl, rfl⟩ := Cursor.emit_eq_ok_iff.mp hc
    rw [Cursor.saturated_eq_of_le h.capacity_le hroom] at hroom
    obtain ⟨i, hi, rfl⟩ := List.mem_map.mp hx
    have hnext := width.mul_add_bytes_le (List.mem_range.mp hi)
    exact ⟨_, i, rfl, by omega, rfl⟩

/-- Every byte of an emitted item lies in the region of the segment that is selected. -/
theorem holds_of_mem_answered_emit {m : MemoryMap} {operations : List Operation} {width : Width}
    {count : Nat} {x : Allocation}
    (hx : x ∈ answered (((fresh m).run operations).2.step (.emit width count)).1) {i : Nat}
    (hi : i < width.bytes) :
    (m.region ((fresh m).run operations).2.current).Holds (x.address.toNat + i) := by
  obtain ⟨hregion, hbounded⟩ := active_run m operations
  generalize ((fresh m).run operations).2 = a at hx hregion hbounded
  obtain ⟨offset, _, -, hroom, rfl⟩ := mem_answered_emit hbounded hx
  have hend := hbounded.end_le
  have haddress : (a.active.addressOf offset).toNat = a.active.region.base.toNat + offset :=
    Cursor.toNat_addressOf (by omega)
  rw [← hregion, haddress]
  exact ⟨by omega, by omega⟩

/-! ## Reaching a byte -/

/-- The area's cursor is the one that reservations move. -/
def Selected (a : Allocator) : Area → Prop
  | .segment s => a.current = s
  | .externs => True

/-- The call that reserves bytes in an area. -/
def reserveIn (bytes : UInt32) : Area → Operation
  | .segment _ => .reserve bytes
  | .externs => .reserveExtern bytes

theorem step_reserveIn {a : Allocator} {area : Area} (hselected : a.Selected area) (bytes : UInt32)
    (hroom : (a.areaCursor area).offset + bytes.toNat ≤ (a.areaCursor area).region.capacity) :
    let c := a.areaCursor area
    let result := a.step (reserveIn bytes area)
    placedBy area (reserveIn bytes area) result.1 = [⟨area.shown, c.addressOf c.offset, bytes⟩] ∧
      result.2.areaCursor area = { c with offset := c.offset + bytes.toNat } ∧
      result.2.Selected area := by
  intro c result
  have hcursor :
      c.reserve bytes.toNat = .ok (c.offset, { c with offset := c.offset + bytes.toNat }) :=
    Cursor.reserve_eq_ok_iff.mpr ⟨hroom, rfl, rfl⟩
  cases area with
  | segment s =>
    cases hselected
    have hreserve := reserve_eq_ok_iff.mpr ⟨_, _, hcursor, rfl, rfl⟩
    have hresult : result = (.ok (.reserved ⟨a.current, c.addressOf c.offset, bytes⟩),
        a.setActive { c with offset := c.offset + bytes.toNat }) :=
      step_of_ok (by rw [reserveIn, perform, hreserve]; rfl)
    rw [hresult, areaCursor_setActive, if_pos rfl]
    exact ⟨by rw [reserveIn, placedBy_reserve, if_pos rfl]; rfl, rfl, rfl⟩
  | externs =>
    have hreserve := reserveExtern_eq_ok_iff.mpr ⟨_, _, hcursor, rfl, rfl⟩
    have hresult : result = (.ok (.reserved ⟨.data, c.addressOf c.offset, bytes⟩),
        { a with externs := { c with offset := c.offset + bytes.toNat } }) :=
      step_of_ok (by rw [reserveIn, perform, hreserve]; rfl)
    rw [hresult]
    exact ⟨rfl, rfl, trivial⟩

/-- A reservation that passes over the bytes before leaves the next byte to another one. -/
theorem exists_placed_of_selected {a : Allocator} {area : Area} (hselected : a.Selected area)
    (hstart : (a.areaCursor area).offset = 0) (hbounded : (a.areaCursor area).Bounded) {byte : Nat}
    (h : (a.areaCursor area).region.Holds byte) :
    ∃ operations, ∃ x ∈ placed area operations (a.run operations).1, x.region.Holds byte := by
  obtain ⟨hbase, hbyte⟩ := h
  have hend := hbounded.end_le
  let skip := UInt32.ofNat (byte - (a.areaCursor area).region.base.toNat)
  have hskip : skip.toNat = byte - (a.areaCursor area).region.base.toNat :=
    UInt32.toNat_ofNat_of_lt' (by omega)
  have hone : (1 : UInt32).toNat = 1 := rfl
  obtain ⟨-, hcursor, hselected⟩ := step_reserveIn hselected skip (by omega)
  obtain ⟨hlast, -, -⟩ := step_reserveIn hselected 1 (by
    rw [hcursor, hstart, hskip, hone]
    simp only
    omega)
  refine ⟨[reserveIn skip area, reserveIn 1 area], _,
    List.mem_append_right _ (List.mem_append_left _ (hlast ▸ List.mem_singleton_self _)), ?_⟩
  have haddress : ((a.areaCursor area).addressOf skip.toNat).toNat = byte := by
    rw [Cursor.toNat_addressOf (by omega)]
    omega
  rw [Allocation.holds_region, Allocation.finish, hcursor, hstart, Nat.zero_add]
  exact ⟨Nat.le_of_eq haddress, haddress ▸ Nat.lt_succ_self _⟩

/-- Every byte of a region is placed by some run. -/
theorem exists_placed {m : MemoryMap} {area : Area} {byte : Nat}
    (h : (m.areaRegion area).Holds byte) :
    ∃ operations, ∃ x ∈ placed area operations ((fresh m).run operations).1,
      x.region.Holds byte := by
  have hbounded := areaCursor_fresh_bounded m area
  rw [areaCursor_fresh] at hbounded
  cases area with
  | segment s =>
    have hcursor : ((fresh m).select s).areaCursor (.segment s) = .start (m.region s) := by
      rw [areaCursor_select, if_pos rfl]
      simp [fresh, cursor, Cursor.start]
    have hselected : ((fresh m).select s).Selected (.segment s) := rfl
    obtain ⟨operations, hplaced⟩ := exists_placed_of_selected hselected (by rw [hcursor]; rfl)
      (by rw [hcursor]; exact hbounded) (by rw [hcursor]; exact h)
    exact ⟨.select s :: operations, hplaced⟩
  | externs =>
    have hselected : (fresh m).Selected .externs := trivial
    exact exists_placed_of_selected hselected rfl hbounded h

end Allocator

end MipsMemory
