import MipsMemory.Proofs.Allocator.Effect

/-!
The allocator in 64-bit words. Every operation is written out once more so that a sum or product
beyond a word and a difference below zero have no value, wherever they are not checked or cut off
on purpose. Main statements: within the bounds of a cursor this reading has a value and agrees with
the exact one, and every run keeps the bounds, so that it never gets stuck.
-/

namespace MipsMemory

/-! ## Arithmetic that can go wrong -/

namespace Word64

/-- A sum that a word holds. -/
def add? (x y : Nat) : Option Nat := if x + y ≤ word64Max then some (x + y) else none

/-- A product that a word holds. -/
def mul? (x y : Nat) : Option Nat := if x * y ≤ word64Max then some (x * y) else none

/-- A difference that is not below zero. -/
def sub? (x y : Nat) : Option Nat := if y ≤ x then some (x - y) else none

theorem add?_eq_some {x y : Nat} (h : x + y ≤ word64Max) : add? x y = some (x + y) := if_pos h

theorem mul?_eq_some {x y : Nat} (h : x * y ≤ word64Max) : mul? x y = some (x * y) := if_pos h

theorem sub?_eq_some {x y : Nat} (h : y ≤ x) : sub? x y = some (x - y) := if_pos h

end Word64

open Word64

/-- The next multiple of a width, by a sum and a mask. -/
def Width.alignUp? (w : Width) (value : Nat) : Option Nat := do
  let mask ← sub? w.bytes 1
  let sum ← add? value mask
  return sum &&& (word64Max ^^^ mask)

theorem Width.alignUp?_eq_some (w : Width) {v : Nat} (h : v + 7 ≤ word64Max) :
    w.alignUp? v = some (w.alignUp v) := by
  have hmask : sub? w.bytes 1 = some w.lowMask := sub?_eq_some w.bytes_pos
  have hsum : add? v w.lowMask = some (v + w.lowMask) :=
    add?_eq_some (Nat.le_trans (Nat.add_le_add_left w.lowMask_le v) h)
  simp [alignUp?, hmask, hsum, alignUp]

/-! ## Cursors -/

namespace Cursor

/-- The bytes left; a cursor past the end of its region has no such number. -/
def available? (c : Cursor) : Option Nat := sub? c.region.capacity c.offset

/-- The address at an offset, `Cursor.addressAt` with its sum checked. -/
def addressAt? (c : Cursor) (offset : Nat) : Option (Except Failure UInt32) := do
  let address ← add? c.region.base.toNat offset
  return if address < UInt32.size then .ok (UInt32.ofNat address) else .error .exhausted

/-- The offset after some bytes. A sum beyond a word is not at fault here: there is no room. -/
def fits? (c : Cursor) (start bytes : Nat) : Option Nat :=
  (add? start bytes).filter (· ≤ c.region.capacity)

/-- The cursor's `align`, with every sum and difference checked. -/
def align? (c : Cursor) (width : Width) : Option (Except Failure (UInt32 × Cursor)) := do
  let aligned ← width.alignUp? c.offset
  if c.region.capacity < aligned then
    let requested ← sub? aligned c.offset
    let available ← c.available?
    return .error (.overflow requested available)
  else
    let address ← c.addressAt? aligned
    return address.map fun address =>
      (address, { c with offset := aligned, autoAlign := width != .byte })

/-- Where items begin, with the rounding checked. -/
def itemStart? (c : Cursor) (width : Width) : Option Nat :=
  if c.autoAlign then width.alignUp? c.offset else some c.offset

/-- The cursor's `emit`. Only the total and the report of a failure are cut off on purpose. -/
def emit? (c : Cursor) (width : Width) (count : Nat) :
    Option (Except Failure (Nat × Cursor)) := do
  let first ← c.itemStart? width
  let total := saturated (width.bytes * count)
  -- the report is made up before it is known whether it is needed
  let padding ← sub? first c.offset
  let available ← c.available?
  match c.fits? first total with
  | some finish => return .ok (first, { c with offset := finish })
  | none => return .error (.overflow (saturated (padding + total)) available)

/-- The cursor's `reserve`, with the room that is left checked first. -/
def reserve? (c : Cursor) (bytes : Nat) : Option (Except Failure (Nat × Cursor)) := do
  let available ← c.available?
  match c.fits? c.offset bytes with
  | some finish => return .ok (c.offset, { c with offset := finish })
  | none => return .error (.overflow bytes available)

/-- The address of an offset; the sum is checked before it is reduced. -/
def addressOf? (c : Cursor) (offset : Nat) : Option UInt32 := do
  let address ← add? c.region.base.toNat offset
  return UInt32.ofNat address

variable {c : Cursor}

theorem Bounded.available?_eq (h : c.Bounded) : c.available? = some c.available :=
  sub?_eq_some h.offset_le

/-- An offset that fits the region makes an address that fits a word. -/
theorem Bounded.base_add_le (h : c.Bounded) {offset : Nat} (ho : offset ≤ c.region.capacity) :
    c.region.base.toNat + offset ≤ word64Max := by
  have hend := h.end_le
  rw [word64Max_eq]
  simp only [UInt32.size] at hend
  omega

theorem Bounded.addressAt?_eq (h : c.Bounded) {offset : Nat}
    (ho : offset ≤ c.region.capacity) : c.addressAt? offset = some (c.addressAt offset) := by
  simp [addressAt?, add?_eq_some (h.base_add_le ho), addressAt]

theorem Bounded.addressOf?_eq (h : c.Bounded) {offset : Nat}
    (ho : offset ≤ c.region.capacity) : c.addressOf? offset = some (c.addressOf offset) := by
  simp [addressOf?, add?_eq_some (h.base_add_le ho), addressOf]

theorem Bounded.fits?_eq (h : c.Bounded) (start bytes : Nat) :
    c.fits? start bytes =
      if start + bytes ≤ c.region.capacity then some (start + bytes) else none := by
  have hcap := h.capacity_le
  have hword : UInt32.size ≤ word64Max := by decide
  unfold fits? add?
  by_cases hroom : start + bytes ≤ c.region.capacity
  · have hsum : start + bytes ≤ word64Max := by omega
    simp [hsum, hroom]
  · -- there is no room either way, whether the sum is a word or not
    rw [if_neg hroom]
    split <;> simp [Nat.not_le.mp hroom]

theorem Bounded.align?_eq (h : c.Bounded) (width : Width) :
    c.align? width = some (c.align width) := by
  have hle := width.le_alignUp h.add_seven_le
  simp only [align?, width.alignUp?_eq_some h.add_seven_le, Option.bind_eq_bind,
    Option.bind_some, align]
  by_cases hroom : c.region.capacity < width.alignUp c.offset
  · simp [hroom, sub?_eq_some hle, h.available?_eq]
  · rw [if_neg hroom, if_neg hroom, h.addressAt?_eq (Nat.not_lt.mp hroom)]
    rfl

theorem Bounded.itemStart?_eq (h : c.Bounded) (width : Width) :
    c.itemStart? width = some (c.itemStart width) := by
  unfold itemStart? itemStart
  split
  · exact width.alignUp?_eq_some h.add_seven_le
  · rfl

theorem Bounded.emit?_eq (h : c.Bounded) (width : Width) (count : Nat) :
    c.emit? width count = some (c.emit width count) := by
  simp only [emit?, h.itemStart?_eq, sub?_eq_some (h.le_itemStart width), h.available?_eq,
    h.fits?_eq, Option.bind_eq_bind, Option.bind_some, emit]
  by_cases hroom : c.itemStart width + saturated (width.bytes * count) ≤ c.region.capacity
  · rw [if_pos hroom, if_pos hroom]
    rfl
  · rw [if_neg hroom, if_neg hroom]
    rfl

theorem Bounded.reserve?_eq (h : c.Bounded) (bytes : Nat) :
    c.reserve? bytes = some (c.reserve bytes) := by
  simp only [reserve?, h.available?_eq, h.fits?_eq, Option.bind_eq_bind, Option.bind_some,
    reserve]
  by_cases hroom : c.offset + bytes ≤ c.region.capacity
  · rw [if_pos hroom, if_pos hroom]
    rfl
  · rw [if_neg hroom, if_neg hroom]
    rfl

end Cursor

/-! ## The allocator -/

theorem mapM_eq_some_map {α β : Type} {f : α → Option β} {g : α → β} {xs : List α}
    (h : ∀ x ∈ xs, f x = some (g x)) : xs.mapM f = some (xs.map g) := by
  induction xs with
  | nil => rfl
  | cons x xs ih =>
    rw [List.mapM_cons, h x (by simp), ih fun y hy => h y (by simp [hy])]
    rfl

namespace Allocator

/-- The next address in the selected segment. -/
def address? (a : Allocator) : Option (Except Error UInt32) := do
  let address ← a.active.addressAt? a.active.offset
  return address.mapError (Cursor.Failure.toError a.current)

/-- The items placed, each address made up from the first one's. -/
def items? (segment : Segment) (cursor : Cursor) (width : Width) (first count : Nat) :
    Option (List Allocation) := do
  let base ← add? cursor.region.base.toNat first
  (List.range count).mapM fun i => do
    let distance ← mul? i width.bytes
    let address ← add? base distance
    return ⟨segment, UInt32.ofNat address, UInt32.ofNat width.bytes⟩

/-- The allocator's `align` by the checked cursor. -/
def align? (a : Allocator) (exponent : Nat) : Option (Except Error (UInt32 × Allocator)) :=
  match Width.ofExponent exponent with
  | .error e => some (.error e)
  | .ok width => do
    match ← a.active.align? width with
    | .error failure => return .error (failure.toError a.current)
    | .ok (address, cursor) => return .ok (address, a.setActive cursor)

/-- The allocator's `emit` by the checked cursor and checked addresses. -/
def emit? (a : Allocator) (width : Width) (count : Nat) :
    Option (Except Error (List Allocation × Allocator)) := do
  match ← a.active.emit? width count with
  | .error failure => return .error (failure.toError a.current)
  | .ok (first, cursor) =>
    let xs ← items? a.current cursor width first count
    return .ok (xs, a.setActive cursor)

/-- The allocator's `reserve`, likewise. -/
def reserve? (a : Allocator) (bytes : UInt32) :
    Option (Except Error (Allocation × Allocator)) := do
  match ← a.active.reserve? bytes.toNat with
  | .error failure => return .error (failure.toError a.current)
  | .ok (first, cursor) =>
    let address ← cursor.addressOf? first
    return .ok (⟨a.current, address, bytes⟩, a.setActive cursor)

/-- The allocator's `reserveExtern`, likewise. -/
def reserveExtern? (a : Allocator) (bytes : UInt32) :
    Option (Except Error (Allocation × Allocator)) := do
  match ← a.externs.reserve? bytes.toNat with
  | .error failure => return .error (failure.toError .data)
  | .ok (first, cursor) =>
    let address ← cursor.addressOf? first
    return .ok (⟨.data, address, bytes⟩, { a with externs := cursor })

/-- An operation in 64-bit words; none where its arithmetic leaves them. -/
def perform? (a : Allocator) : Operation → Option (Except Error (Outcome × Allocator))
  | .select segment => some (.ok (.selected, a.select segment))
  | .align exponent =>
    (a.align? exponent).map (·.map fun (address, a) => (.aligned address, a))
  | .emit width count => (a.emit? width count).map (·.map fun (xs, a) => (.emitted xs, a))
  | .reserve bytes => (a.reserve? bytes).map (·.map fun (x, a) => (.reserved x, a))
  | .reserveExtern bytes =>
    (a.reserveExtern? bytes).map (·.map fun (x, a) => (.reserved x, a))

variable {a : Allocator}

theorem address?_eq (h : a.active.Bounded) : a.address? = some a.address := by
  simp [address?, h.addressAt?_eq h.offset_le, address]

/-- Items that end inside the region have addresses that stay in words. -/
theorem items?_eq {c : Cursor} (h : c.Bounded) (s : Segment) (width : Width) {first count : Nat}
    (hroom : first + width.bytes * count ≤ c.region.capacity) :
    items? s c width first count = some (items s c width first count) := by
  have hbase : add? c.region.base.toNat first = some (c.region.base.toNat + first) :=
    add?_eq_some (h.base_add_le (by omega))
  simp only [items?, hbase, Option.bind_eq_bind, Option.bind_some]
  refine mapM_eq_some_map fun i hi => ?_
  have hle : i * width.bytes ≤ width.bytes * count := by
    rw [Nat.mul_comm]
    exact Nat.mul_le_mul_left _ (Nat.le_of_lt (List.mem_range.mp hi))
  have hsum := h.base_add_le (Nat.le_trans (Nat.add_le_add_left hle first) hroom)
  have hmul : mul? i width.bytes = some (i * width.bytes) := mul?_eq_some (by omega)
  have hadd : add? (c.region.base.toNat + first) (i * width.bytes) =
      some (c.region.base.toNat + first + i * width.bytes) := add?_eq_some (by omega)
  simp [hmul, hadd, Cursor.addressOf, Nat.add_assoc]

theorem align?_eq (h : a.active.Bounded) (exponent : Nat) :
    a.align? exponent = some (a.align exponent) := by
  unfold align? align
  cases Width.ofExponent exponent with
  | error e => rfl
  | ok width =>
    simp only [h.align?_eq, bind, Option.bind, Except.bind]
    cases a.active.align width <;> rfl

theorem emit?_eq (h : a.active.Bounded) (width : Width) (count : Nat) :
    a.emit? width count = some (a.emit width count) := by
  simp only [emit?, emit, h.emit?_eq, Option.bind_eq_bind, Option.bind_some]
  cases hemit : a.active.emit width count with
  | error failure => rfl
  | ok result =>
    obtain ⟨first, c⟩ := result
    obtain ⟨room, rfl, rfl⟩ := Cursor.emit_eq_ok_iff.mp hemit
    -- the total was not cut off, as it would not have fitted
    have hexact := Cursor.saturated_eq_of_le h.capacity_le room
    rw [hexact] at room ⊢
    have hc : Cursor.Bounded
        { a.active with offset := a.active.itemStart width + width.bytes * count } :=
      ⟨room, h.end_le⟩
    simp only [items?_eq hc a.current width room]
    rfl

theorem reserve?_eq (h : a.active.Bounded) (bytes : UInt32) :
    a.reserve? bytes = some (a.reserve bytes) := by
  simp only [reserve?, reserve, h.reserve?_eq, Option.bind_eq_bind, Option.bind_some]
  cases hreserve : a.active.reserve bytes.toNat with
  | error failure => rfl
  | ok result =>
    obtain ⟨first, c⟩ := result
    obtain ⟨room, rfl, rfl⟩ := Cursor.reserve_eq_ok_iff.mp hreserve
    have hc : Cursor.Bounded { a.active with offset := a.active.offset + bytes.toNat } :=
      ⟨room, h.end_le⟩
    simp only [hc.addressOf?_eq h.offset_le]
    rfl

theorem reserveExtern?_eq (h : a.externs.Bounded) (bytes : UInt32) :
    a.reserveExtern? bytes = some (a.reserveExtern bytes) := by
  simp only [reserveExtern?, reserveExtern, h.reserve?_eq, Option.bind_eq_bind,
    Option.bind_some]
  cases hreserve : a.externs.reserve bytes.toNat with
  | error failure => rfl
  | ok result =>
    obtain ⟨first, c⟩ := result
    obtain ⟨room, rfl, rfl⟩ := Cursor.reserve_eq_ok_iff.mp hreserve
    have hc : Cursor.Bounded { a.externs with offset := a.externs.offset + bytes.toNat } :=
      ⟨room, h.end_le⟩
    simp only [hc.addressOf?_eq h.offset_le]
    rfl

/-- Within the bounds of its cursors an allocator never leaves 64-bit words. -/
theorem perform?_eq (h : ∀ area, (a.areaCursor area).Bounded) (operation : Operation) :
    a.perform? operation = some (a.perform operation) := by
  have hactive : a.active.Bounded := h (.segment a.current)
  have hexterns : a.externs.Bounded := h .externs
  cases operation with
  | select s => rfl
  | align exponent => rw [perform?, align?_eq hactive]; rfl
  | emit width count => rw [perform?, emit?_eq hactive]; rfl
  | reserve bytes => rw [perform?, reserve?_eq hactive]; rfl
  | reserveExtern bytes => rw [perform?, reserveExtern?_eq hexterns]; rfl

/-- In every state that calls lead to from a fresh allocator, failed ones included, each area has
the region it began with and an offset inside it that no later call moves back, and neither the next
call nor a look at the next address leaves 64-bit words. -/
theorem run_stays_in_words (m : MemoryMap) (earlier later : List Operation) :
    let a := ((fresh m).run earlier).2
    let b := ((fresh m).run (earlier ++ later)).2
    (∀ area, (a.areaCursor area).region = m.areaRegion area ∧
      (a.areaCursor area).offset ≤ (m.areaRegion area).capacity ∧
      (m.areaRegion area).base.toNat + (m.areaRegion area).capacity ≤ UInt32.size ∧
      (a.areaCursor area).offset ≤ (b.areaCursor area).offset) ∧
    (∀ operation, a.perform? operation = some (a.perform operation)) ∧
    a.address? = some a.address := by
  intro a b
  have ha : ∀ area, ((fresh m).areaCursor area).Extends (a.areaCursor area) := fun area =>
    run_extends (areaCursor_fresh_bounded m area) earlier
  refine ⟨fun area => ?_, perform?_eq fun area => (ha area).bounded,
    address?_eq (ha (.segment a.current)).bounded⟩
  have hregion : (a.areaCursor area).region = m.areaRegion area := by
    rw [(ha area).region_eq, areaCursor_fresh]
    rfl
  have hb : (a.areaCursor area).Extends (b.areaCursor area) := by
    simp only [b, run_append]
    exact run_extends (ha area).bounded later
  exact ⟨hregion, hregion ▸ (ha area).bounded.offset_le, m.areaRegion_end_le area, hb.offset_le⟩

end Allocator

end MipsMemory
