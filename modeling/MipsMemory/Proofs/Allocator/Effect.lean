import Mathlib.Algebra.Group.Nat.Defs
import MipsMemory.Allocator
import MipsMemory.Proofs.Alignment
import MipsMemory.Proofs.Except
import MipsMemory.Proofs.Region

/-!
What calls do in one area. An area is a segment or the extern area; each has a cursor of its own.
`Effect` lists everything one call can do to the cursor of an area and to the allocations it answers
there, guards included. Main statements: every step has such an effect in every area, and what each
effect keeps every run keeps.
-/

namespace MipsMemory

/-- A region with a cursor of its own. -/
inductive Area where
  | segment (s : Segment)
  | externs
  deriving DecidableEq, Repr

/-- The segment that allocations in an area report. Externs count as data. -/
def Area.shown : Area → Segment
  | .segment s => s
  | .externs => .data

/-- The region of an area. -/
def MemoryMap.areaRegion (m : MemoryMap) : Area → Region
  | .segment s => m.region s
  | .externs => m.externRegion

theorem MemoryMap.areaRegion_end_le (m : MemoryMap) (area : Area) :
    (m.areaRegion area).base.toNat + (m.areaRegion area).capacity ≤ UInt32.size := by
  cases area with
  | segment s => exact m.region_end_le s
  | externs => exact m.externRegion_end_le

/-! ## Cursors -/

theorem Width.eq_exponent_of_ofExponent {exponent : Nat} {width : Width}
    (h : Width.ofExponent exponent = .ok width) : exponent = width.exponent := by
  unfold Width.ofExponent at h
  split at h
  · rename_i hwidth
    cases h
    unfold Width.ofExponent? at hwidth
    split at hwidth <;> cases hwidth <;> rfl
  · cases h

theorem Width.bytes_eq_of_ofExponent {exponent : Nat} {width : Width}
    (h : Width.ofExponent exponent = .ok width) : width.bytes = 2 ^ exponent := by
  rw [eq_exponent_of_ofExponent h]
  cases width <;> rfl

/-- Exponent zero is that of a byte. -/
theorem Width.bne_zero_of_ofExponent {exponent : Nat} {width : Width}
    (h : Width.ofExponent exponent = .ok width) : (exponent != 0) = (width != .byte) := by
  rw [Width.eq_exponent_of_ofExponent h]
  cases width <;> rfl

theorem Width.exists_ofExponent {exponent : Nat} (h : exponent ≤ 3) :
    ∃ width, Width.ofExponent exponent = .ok width := by
  rcases exponent with _ | _ | _ | _ | _
  · exact ⟨.byte, rfl⟩
  · exact ⟨.half, rfl⟩
  · exact ⟨.word, rfl⟩
  · exact ⟨.double, rfl⟩
  · omega

namespace Cursor

theorem align_eq_ok_iff {c c' : Cursor} {width : Width} {address : UInt32} :
    c.align width = .ok (address, c') ↔
      width.alignUp c.offset ≤ c.region.capacity ∧
        c.region.base.toNat + width.alignUp c.offset < UInt32.size ∧
        address = c.addressOf (width.alignUp c.offset) ∧
        c' = { c with offset := width.alignUp c.offset, autoAlign := width != .byte } := by
  unfold align addressAt addressOf
  by_cases hroom : c.region.capacity < width.alignUp c.offset
  · simp [hroom, Nat.not_le.mpr hroom]
  · by_cases htop : c.region.base.toNat + width.alignUp c.offset < UInt32.size
    · simp [hroom, htop, Nat.not_lt.mp hroom, bind, Except.bind, pure, Except.pure, eq_comm]
    · simp [hroom, htop, bind, Except.bind]

theorem emit_eq_ok_iff {c c' : Cursor} {width : Width} {count first : Nat} :
    c.emit width count = .ok (first, c') ↔
      c.itemStart width + saturated (width.bytes * count) ≤ c.region.capacity ∧
        first = c.itemStart width ∧
        c' = { c with offset := c.itemStart width + saturated (width.bytes * count) } := by
  by_cases hroom :
      c.itemStart width + saturated (width.bytes * count) ≤ c.region.capacity
  · simp [emit, hroom, eq_comm]
  · simp [emit, hroom]

theorem reserve_eq_ok_iff {c c' : Cursor} {bytes first : Nat} :
    c.reserve bytes = .ok (first, c') ↔
      c.offset + bytes ≤ c.region.capacity ∧ first = c.offset ∧
        c' = { c with offset := c.offset + bytes } := by
  by_cases hroom : c.offset + bytes ≤ c.region.capacity
  · simp [reserve, hroom, eq_comm]
  · simp [reserve, hroom]

/-- The offset lies in the region, and the region in the address space. -/
structure Bounded (c : Cursor) : Prop where
  offset_le : c.offset ≤ c.region.capacity
  end_le : c.region.base.toNat + c.region.capacity ≤ UInt32.size

theorem Bounded.capacity_le {c : Cursor} (h : c.Bounded) : c.region.capacity ≤ UInt32.size :=
  Nat.le_trans (Nat.le_add_left _ _) h.end_le

/-- Every rounding of the offset is exact. -/
theorem Bounded.add_seven_le {c : Cursor} (h : c.Bounded) : c.offset + 7 ≤ word64Max := by
  have hoffset := h.offset_le
  have hcap := h.capacity_le
  rw [word64Max_eq]
  simp only [UInt32.size] at hcap
  omega

theorem Bounded.le_itemStart {c : Cursor} (h : c.Bounded) (width : Width) :
    c.offset ≤ c.itemStart width := by
  unfold itemStart
  split
  · exact width.le_alignUp h.add_seven_le
  · exact Nat.le_refl _

/-- A later cursor of the same region, filled no less. -/
structure Extends (earlier later : Cursor) : Prop where
  region_eq : later.region = earlier.region
  bounded : later.Bounded
  offset_le : earlier.offset ≤ later.offset

theorem Bounded.extends_self {c : Cursor} (h : c.Bounded) : c.Extends c :=
  ⟨rfl, h, Nat.le_refl _⟩

/-- A total that fits a region is below the bound at which totals are cut off. -/
theorem saturated_eq_of_le {n k capacity : Nat} (hcap : capacity ≤ UInt32.size)
    (h : k + saturated n ≤ capacity) : saturated n = n := by
  rw [saturated, word64Max_eq] at h ⊢
  simp only [UInt32.size] at hcap
  omega

end Cursor

namespace Allocator

/-- The cursor of an area. -/
def areaCursor (a : Allocator) : Area → Cursor
  | .segment s => a.cursor s
  | .externs => a.externs

theorem areaCursor_fresh (m : MemoryMap) (area : Area) :
    (fresh m).areaCursor area = .start (m.areaRegion area) := by
  cases area <;> simp [fresh, areaCursor, cursor, MemoryMap.areaRegion]

theorem areaCursor_setActive (a : Allocator) (c : Cursor) (area : Area) :
    (a.setActive c).areaCursor area =
      if area = .segment a.current then c else a.areaCursor area := by
  cases area with
  | externs => rfl
  | segment s =>
    by_cases hs : s = a.current
    · subst hs
      simp [areaCursor, setActive, cursor]
    · simp [areaCursor, a.cursor_setActive_of_ne c hs, hs]

@[simp] theorem setActive_active (a : Allocator) : a.setActive a.active = a := by
  simp [setActive, active, cursor]

@[simp] theorem setActive_setActive (a : Allocator) (c d : Cursor) :
    (a.setActive c).setActive d = a.setActive d := by
  unfold setActive
  cases a.current <;> rfl

theorem areaCursor_select (a : Allocator) (s : Segment) (area : Area) :
    (a.select s).areaCursor area =
      if area = .segment s then { a.cursor s with autoAlign := true } else a.areaCursor area := by
  cases area with
  | externs => rfl
  | segment t =>
    by_cases ht : t = s
    · subst ht
      simp [areaCursor, select, cursor]
    · simp [areaCursor, select, cursor, a.cursors.get_set_of_ne _ ht, ht]

/-! ## Calls that succeed -/

theorem address_eq_ok_iff {a : Allocator} {address : UInt32} :
    a.address = .ok address ↔
      a.active.region.base.toNat + a.active.offset < UInt32.size ∧
        address = a.active.addressOf a.active.offset := by
  simp only [Allocator.address, mapError_eq_ok_iff, Cursor.addressAt, Cursor.addressOf]
  split
  · rename_i htop
    rw [Except.ok.injEq, and_iff_right htop, eq_comm]
  · rename_i htop
    constructor
    · intro h
      cases h
    · intro h
      exact absurd h.1 htop

theorem address_eq_error {a : Allocator}
    (h : UInt32.size ≤ a.active.region.base.toNat + a.active.offset) :
    a.address = .error (.addressSpaceExhausted a.current) := by
  simp only [Allocator.address, Cursor.addressAt, if_neg (Nat.not_lt.mpr h)]
  rfl

theorem align_eq_ok_iff {a a' : Allocator} {exponent : Nat} {address : UInt32} :
    a.align exponent = .ok (address, a') ↔
      ∃ width c, Width.ofExponent exponent = .ok width ∧
        a.active.align width = .ok (address, c) ∧ a' = a.setActive c := by
  simp only [align, bind_eq_ok_iff, mapError_eq_ok_iff]
  constructor
  · rintro ⟨width, hw, ⟨_, c⟩, hc, h⟩
    cases h
    exact ⟨width, c, hw, hc, rfl⟩
  · rintro ⟨width, c, hw, hc, rfl⟩
    exact ⟨width, hw, ⟨address, c⟩, hc, rfl⟩

theorem emit_eq_ok_iff {a a' : Allocator} {width : Width} {count : Nat}
    {xs : List Allocation} :
    a.emit width count = .ok (xs, a') ↔
      ∃ first c, a.active.emit width count = .ok (first, c) ∧
        xs = items a.current c width first count ∧ a' = a.setActive c := by
  simp [emit, bind_eq_ok_iff, pure, Except.pure, @eq_comm _ a', @eq_comm _ xs]

theorem reserve_eq_ok_iff {a a' : Allocator} {bytes : UInt32} {x : Allocation} :
    a.reserve bytes = .ok (x, a') ↔
      ∃ first c, a.active.reserve bytes.toNat = .ok (first, c) ∧
        x = ⟨a.current, c.addressOf first, bytes⟩ ∧ a' = a.setActive c := by
  simp [reserve, bind_eq_ok_iff, pure, Except.pure, @eq_comm _ a', @eq_comm _ x]

theorem reserveExtern_eq_ok_iff {a a' : Allocator} {bytes : UInt32} {x : Allocation} :
    a.reserveExtern bytes = .ok (x, a') ↔
      ∃ first c, a.externs.reserve bytes.toNat = .ok (first, c) ∧
        x = ⟨.data, c.addressOf first, bytes⟩ ∧ a' = { a with externs := c } := by
  simp [reserveExtern, bind_eq_ok_iff, pure, Except.pure, @eq_comm _ a', @eq_comm _ x]

theorem step_of_ok {a a' : Allocator} {operation : Operation} {outcome : Outcome}
    (h : a.perform operation = .ok (outcome, a')) : a.step operation = (.ok outcome, a') := by
  simp [step, h, after]

/-! ## What calls and their answers show -/

/-- Where the allocations of a call lie: those of `reserveExtern` in the extern area, all others in
the segment they report. -/
def Operation.areaOf (operation : Operation) (x : Allocation) : Area :=
  match operation with
  | .reserveExtern _ => .externs
  | _ => .segment x.segment

/-- The pieces an answer hands out. -/
def answered : Except Error Outcome → List Allocation
  | .ok (.emitted xs) => xs
  | .ok (.reserved x) => [x]
  | .ok .selected | .ok (.aligned _) | .error _ => []

/-- The allocations that one call answers in an area. -/
def placedBy (area : Area) (operation : Operation) (answer : Except Error Outcome) :
    List Allocation :=
  (answered answer).filter (operation.areaOf · = area)

/-- The allocations that calls answer in an area, in the order of the calls. -/
def placed (area : Area) : List Operation → List (Except Error Outcome) → List Allocation
  | operation :: operations, answer :: answers =>
    placedBy area operation answer ++ placed area operations answers
  | _, _ => []

theorem placedBy_error (area : Area) (operation : Operation) (e : Error) :
    placedBy area operation (.error e) = [] := rfl

theorem placedBy_items (area : Area) (s : Segment) (c : Cursor) (width : Width)
    (first count : Nat) :
    placedBy area (.emit width count) (.ok (.emitted (items s c width first count))) =
      if area = .segment s then items s c width first count else [] := by
  have hshown : ∀ x ∈ items s c width first count, x.segment = s := by
    intro x hx
    obtain ⟨i, -, rfl⟩ := List.mem_map.mp hx
    rfl
  split
  · rename_i h
    subst h
    exact List.filter_eq_self.mpr fun x hx => by simp [Operation.areaOf, hshown x hx]
  · rename_i h
    exact List.filter_eq_nil_iff.mpr fun x hx => by
      simp [Operation.areaOf, hshown x hx, Ne.symm h]

theorem placedBy_reserve (area : Area) (bytes : UInt32) (x : Allocation) :
    placedBy area (.reserve bytes) (.ok (.reserved x)) =
      if area = .segment x.segment then [x] else [] := by
  by_cases h : area = .segment x.segment
  · simp [placedBy, answered, Operation.areaOf, h]
  · simp [placedBy, answered, Operation.areaOf, h, Ne.symm h]

/-! ## Effects -/

/-- Everything one call can do in an area: the cursor it finds there, the allocations it answers
there and the cursor it leaves. -/
inductive Effect : Area → Cursor → List Allocation → Cursor → Prop
  | idle (area : Area) (c : Cursor) : Effect area c [] c
  | select (s : Segment) (c : Cursor) : Effect (.segment s) c [] { c with autoAlign := true }
  | align (s : Segment) (c : Cursor) (width : Width)
      (room : width.alignUp c.offset ≤ c.region.capacity)
      (top : c.region.base.toNat + width.alignUp c.offset < UInt32.size) :
      Effect (.segment s) c []
        { c with offset := width.alignUp c.offset, autoAlign := width != .byte }
  | emit (s : Segment) (c : Cursor) (width : Width) (count : Nat)
      (room : c.itemStart width + width.bytes * count ≤ c.region.capacity) :
      Effect (.segment s) c (items s c width (c.itemStart width) count)
        { c with offset := c.itemStart width + width.bytes * count }
  | reserve (area : Area) (c : Cursor) (bytes : UInt32)
      (room : c.offset + bytes.toNat ≤ c.region.capacity) :
      Effect area c [⟨area.shown, c.addressOf c.offset, bytes⟩]
        { c with offset := c.offset + bytes.toNat }

/-- Every step, failed ones included, has one of the effects in every area. -/
theorem step_effect {a : Allocator} {area : Area}
    (hcap : (a.areaCursor area).region.capacity ≤ UInt32.size) (operation : Operation) :
    Effect area (a.areaCursor area) (placedBy area operation (a.step operation).1)
      ((a.step operation).2.areaCursor area) := by
  cases hp : a.perform operation with
  | error e =>
    rw [step_of_error hp, placedBy_error]
    exact .idle ..
  | ok result =>
    obtain ⟨outcome, a'⟩ := result
    rw [step_of_ok hp]
    -- a call moves the cursor of one area only, so in any other area it is idle
    cases operation with
    | select s =>
      cases hp
      rw [areaCursor_select]
      split
      · rename_i h
        subst h
        exact .select ..
      · exact .idle ..
    | align exponent =>
      obtain ⟨⟨address, _⟩, halign, he⟩ := map_eq_ok_iff.mp hp
      cases he
      obtain ⟨width, c, -, hc, rfl⟩ := align_eq_ok_iff.mp halign
      obtain ⟨room, top, -, rfl⟩ := Cursor.align_eq_ok_iff.mp hc
      rw [areaCursor_setActive]
      split
      · rename_i h
        subst h
        exact .align _ _ _ room top
      · exact .idle ..
    | emit width count =>
      obtain ⟨⟨xs, _⟩, hemit, he⟩ := map_eq_ok_iff.mp hp
      cases he
      obtain ⟨first, c, hc, rfl, rfl⟩ := emit_eq_ok_iff.mp hemit
      obtain ⟨room, rfl, rfl⟩ := Cursor.emit_eq_ok_iff.mp hc
      rw [areaCursor_setActive, placedBy_items]
      split
      · rename_i h
        subst h
        have hexact := Cursor.saturated_eq_of_le hcap room
        rw [hexact] at room ⊢
        exact .emit _ _ _ _ room
      · exact .idle ..
    | reserve bytes =>
      obtain ⟨⟨x, _⟩, hreserve, he⟩ := map_eq_ok_iff.mp hp
      cases he
      obtain ⟨first, c, hc, rfl, rfl⟩ := reserve_eq_ok_iff.mp hreserve
      obtain ⟨room, rfl, rfl⟩ := Cursor.reserve_eq_ok_iff.mp hc
      rw [areaCursor_setActive, placedBy_reserve]
      by_cases h : area = .segment a.current
      · rw [if_pos h, if_pos h]
        subst h
        exact .reserve _ _ _ room
      · rw [if_neg h, if_neg h]
        exact .idle ..
    | reserveExtern bytes =>
      obtain ⟨⟨x, _⟩, hreserve, he⟩ := map_eq_ok_iff.mp hp
      cases he
      obtain ⟨first, c, hc, rfl, rfl⟩ := reserveExtern_eq_ok_iff.mp hreserve
      obtain ⟨room, rfl, rfl⟩ := Cursor.reserve_eq_ok_iff.mp hc
      cases area with
      | segment s => exact .idle ..
      | externs => exact .reserve _ _ _ room

theorem Effect.region_eq {area : Area} {c c' : Cursor} {xs : List Allocation}
    (h : Effect area c xs c') : c'.region = c.region := by
  cases h <;> rfl

/-- The bounds of a cursor survive every effect, and its offset only grows. -/
theorem Effect.bounded {area : Area} {c c' : Cursor} {xs : List Allocation}
    (h : Effect area c xs c') (hc : c.Bounded) : c'.Bounded ∧ c.offset ≤ c'.offset := by
  cases h with
  | idle => exact ⟨hc, Nat.le_refl _⟩
  | select => exact ⟨⟨hc.offset_le, hc.end_le⟩, Nat.le_refl _⟩
  | align s c width room => exact ⟨⟨room, hc.end_le⟩, width.le_alignUp hc.add_seven_le⟩
  | emit s c width count room =>
    have hstart := hc.le_itemStart width
    exact ⟨⟨room, hc.end_le⟩, by simp only; omega⟩
  | reserve area c bytes room => exact ⟨⟨room, hc.end_le⟩, Nat.le_add_right _ _⟩

/-! ## Runs -/

/-- What every effect in an area keeps holds of the allocations and the cursor after any run. -/
theorem run_induction {area : Area} (P : List Allocation → Cursor → Prop)
    (keep : ∀ {xs ys c c'}, P xs c → Effect area c ys c' → P (xs ++ ys) c')
    (operations : List Operation) {a : Allocator} (xs : List Allocation)
    (hcap : (a.areaCursor area).region.capacity ≤ UInt32.size)
    (h : P xs (a.areaCursor area)) :
    P (xs ++ placed area operations (a.run operations).1)
      ((a.run operations).2.areaCursor area) := by
  induction operations generalizing a xs with
  | nil => simpa [run, placed] using h
  | cons operation operations ih =>
    -- the allocations so far are carried along, since what is kept may depend on all of them
    have heffect := step_effect hcap operation
    simp only [run, placed, ← List.append_assoc]
    exact ih _ (by rw [heffect.region_eq]; exact hcap) (keep h heffect)

theorem areaCursor_fresh_bounded (m : MemoryMap) (area : Area) :
    ((fresh m).areaCursor area).Bounded := by
  rw [areaCursor_fresh]
  exact ⟨Nat.zero_le _, m.areaRegion_end_le area⟩

/-- A run leaves every region as it is, keeps the bounds and moves no offset back. -/
theorem run_extends {a : Allocator} {area : Area} (h : (a.areaCursor area).Bounded)
    (operations : List Operation) :
    (a.areaCursor area).Extends ((a.run operations).2.areaCursor area) := by
  refine run_induction (fun _ c => (a.areaCursor area).Extends c) ?_ operations []
    h.capacity_le h.extends_self
  intro _ _ c c' hextends heffect
  obtain ⟨hc, hle⟩ := heffect.bounded hextends.bounded
  exact ⟨heffect.region_eq.trans hextends.region_eq, hc, Nat.le_trans hextends.offset_le hle⟩

theorem run_append (a : Allocator) (xs ys : List Operation) :
    (a.run (xs ++ ys)).2 = ((a.run xs).2.run ys).2 := by
  induction xs generalizing a with
  | nil => rfl
  | cons x xs ih => simp only [List.cons_append, run, ih]

end Allocator

end MipsMemory
