import MipsMemory.Proofs.Allocator.Effect
import MipsMemory.Proofs.Procedure

/-!
An allocator that is changed in place. Every call is written out once more as checks and assignments
to single components, one after another, where a failure keeps whatever was assigned before it.
Main statement: no call checks anything once it has assigned, so that in place it answers and leaves
what `Allocator.step` does.
-/

namespace MipsMemory

/-- A call that reads and assigns one allocator. -/
abbrev InPlace (α : Type) : Type := Procedure Allocator Error α

namespace InPlace

open Procedure (exec settle)

/-! ## Assignments -/

/-- Assigns which segment is selected. -/
def setCurrent (s : Segment) : InPlace Unit :=
  modify fun a => { a with current := s }

/-- Assigns how far the selected segment is filled. -/
def setOffset (offset : Nat) : InPlace Unit :=
  modify fun a => a.setActive { a.active with offset }

/-- Assigns the automatic alignment of the selected segment. -/
def setAutoAlign (autoAlign : Bool) : InPlace Unit :=
  modify fun a => a.setActive { a.active with autoAlign }

/-- Assigns how far the extern area is filled. -/
def setExternOffset (offset : Nat) : InPlace Unit :=
  modify fun a => { a with externs := { a.externs with offset } }

/-! ## Calls -/

/-- Two assignments and nothing to check. -/
def select (s : Segment) : InPlace Unit := do
  setCurrent s
  setAutoAlign true

/-- The width is checked first, then the room, then whether there is an address left. -/
def align (exponent : Nat) : InPlace UInt32 := do
  let width ← ofExcept (Width.ofExponent exponent)
  let a ← get
  let c := a.active
  let aligned := width.alignUp c.offset
  if c.region.capacity < aligned then
    throw (.allocationOverflow a.current (aligned - c.offset) c.available)
  else
    let address ← ofExcept ((c.addressAt aligned).mapError (Cursor.Failure.toError a.current))
    setOffset aligned
    setAutoAlign (exponent != 0)
    return address

/-- Room is checked for all items at once. -/
def emit (width : Width) (count : Nat) : InPlace (List Allocation) := do
  let a ← get
  let c := a.active
  let first := c.itemStart width
  let total := Cursor.saturated (width.bytes * count)
  if first + total ≤ c.region.capacity then
    setOffset (first + total)
    return Allocator.items a.current c width first count
  else
    throw (.allocationOverflow a.current (Cursor.saturated (first - c.offset + total)) c.available)

/-- Bytes as they are, from a cursor whose offset can be assigned. -/
def bump (segment : Segment) (c : Cursor) (setOffset : Nat → InPlace Unit) (bytes : UInt32) :
    InPlace Allocation :=
  if c.offset + bytes.toNat ≤ c.region.capacity then do
    setOffset (c.offset + bytes.toNat)
    return ⟨segment, c.addressOf c.offset, bytes⟩
  else throw (.allocationOverflow segment bytes.toNat c.available)

/-- Room in the selected segment. -/
def reserve (bytes : UInt32) : InPlace Allocation := do
  let a ← get
  bump a.current a.active setOffset bytes

/-- Room in the extern area, which counts as data. -/
def reserveExtern (bytes : UInt32) : InPlace Allocation := do
  let a ← get
  bump .data a.externs setExternOffset bytes

/-- Any operation, with its answer. -/
def perform : Allocator.Operation → InPlace Allocator.Outcome
  | .select segment => do
    select segment
    return .selected
  | .align exponent => do
    let address ← align exponent
    return .aligned address
  | .emit width count => do
    let items ← emit width count
    return .emitted items
  | .reserve bytes => do
    let item ← reserve bytes
    return .reserved item
  | .reserveExtern bytes => do
    let item ← reserveExtern bytes
    return .reserved item

/-! ## In place as in one piece -/

/-- A call in one piece settles as a procedure does. -/
theorem after_eq_settle {α : Type} (a : Allocator) (call : Except Error (α × Allocator)) :
    a.after call = settle a call := by
  cases call <;> rfl

theorem exec_select (s : Segment) (a : Allocator) : exec (select s) a = (.ok (), a.select s) := by
  simp only [select, setCurrent, setAutoAlign, Procedure.exec_bind, Procedure.exec_modify]
  rfl

theorem exec_align (exponent : Nat) (a : Allocator) :
    exec (align exponent) a = settle a (a.align exponent) := by
  simp only [align, Allocator.align, Cursor.align, Procedure.exec_bind, Procedure.exec_ofExcept,
    Procedure.exec_get]
  cases hw : Width.ofExponent exponent with
  | error e => rfl
  | ok width =>
    simp only [ok_bind]
    split
    · rfl
    · cases haddress : a.active.addressAt (width.alignUp a.active.offset) with
      | error failure =>
        simp only [Procedure.exec_bind, Procedure.exec_ofExcept]
        rfl
      | ok address =>
        simp only [setOffset, setAutoAlign, Width.bne_zero_of_ofExponent hw, mapError_ok,
          Procedure.exec_bind, Procedure.exec_ofExcept, Procedure.exec_modify, Procedure.exec_pure,
          Allocator.active_setActive, Allocator.setActive_setActive]
        rfl

theorem exec_emit (width : Width) (count : Nat) (a : Allocator) :
    exec (emit width count) a = settle a (a.emit width count) := by
  simp only [emit, Allocator.emit, Cursor.emit, Procedure.exec_bind, Procedure.exec_get]
  split
  · rfl
  · rfl

theorem exec_reserve (bytes : UInt32) (a : Allocator) :
    exec (reserve bytes) a = settle a (a.reserve bytes) := by
  simp only [reserve, bump, Allocator.reserve, Cursor.reserve, Procedure.exec_bind,
    Procedure.exec_get]
  split
  · rfl
  · rfl

theorem exec_reserveExtern (bytes : UInt32) (a : Allocator) :
    exec (reserveExtern bytes) a = settle a (a.reserveExtern bytes) := by
  simp only [reserveExtern, bump, Allocator.reserveExtern, Cursor.reserve, Procedure.exec_bind,
    Procedure.exec_get]
  split
  · rfl
  · rfl

theorem exec_perform (operation : Allocator.Operation) (a : Allocator) :
    exec (perform operation) a = a.step operation := by
  rw [Allocator.step, after_eq_settle]
  cases operation with
  | select s =>
    simp only [perform, Procedure.exec_bind, exec_select]
    rfl
  | align exponent => exact Procedure.exec_map (exec_align exponent a) Allocator.Outcome.aligned
  | emit width count => exact Procedure.exec_map (exec_emit width count a) Allocator.Outcome.emitted
  | reserve bytes => exact Procedure.exec_map (exec_reserve bytes a) Allocator.Outcome.reserved
  | reserveExtern bytes => exact Procedure.exec_map (exec_reserveExtern bytes a) Allocator.Outcome.reserved

end InPlace

end MipsMemory
