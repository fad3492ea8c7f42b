import MipsMemory.Error

/-!
A bump allocator over the four segments and the extern area. Each region is filled by a cursor that
only moves forward. Main statements: an operation that fails leaves the allocator alone, and
selecting a segment moves no cursor.
-/

namespace MipsMemory

/-- A piece of memory handed out. -/
structure Allocation where
  segment : Segment
  address : UInt32
  size : UInt32
  deriving DecidableEq, Repr

/-- How far a region is filled, and whether the next items are aligned to their own width. -/
structure Cursor where
  region : Region
  offset : Nat
  autoAlign : Bool
  deriving DecidableEq, Repr

namespace Cursor

/-- Why a cursor cannot move. -/
inductive Failure where
  | overflow (requested available : Nat)
  | exhausted
  deriving DecidableEq, Repr

/-- The failure as the error of the segment it happened in. -/
def Failure.toError (segment : Segment) : Failure → Error
  | .overflow requested available => .allocationOverflow segment requested available
  | .exhausted => .addressSpaceExhausted segment

/-- A cursor at the base of its region; items are aligned until something says otherwise. -/
def start (region : Region) : Cursor := ⟨region, 0, true⟩

/-- The bytes of the region that are left. -/
def available (c : Cursor) : Nat := c.region.capacity - c.offset

/-- The address at an offset; none past the last one there is. -/
def addressAt (c : Cursor) (offset : Nat) : Except Failure UInt32 :=
  let address := c.region.base.toNat + offset
  if address < UInt32.size then .ok (UInt32.ofNat address) else .error .exhausted

/-- A byte count as it is reported: no more than a 64-bit word holds. -/
def saturated (n : Nat) : Nat := min n word64Max

/-- Moves to the next multiple of a width. Alignment to a byte switches automatic alignment off, any
other switches it on. -/
def align (c : Cursor) (width : Width) : Except Failure (UInt32 × Cursor) :=
  let aligned := width.alignUp c.offset
  if c.region.capacity < aligned then .error (.overflow (aligned - c.offset) c.available)
  else do
    let address ← c.addressAt aligned
    return (address, { c with offset := aligned, autoAlign := width != .byte })

/-- Where items of a width begin. -/
def itemStart (c : Cursor) (width : Width) : Nat :=
  if c.autoAlign then width.alignUp c.offset else c.offset

/-- Makes room for items of one width and answers the offset of the first. -/
def emit (c : Cursor) (width : Width) (count : Nat) : Except Failure (Nat × Cursor) :=
  let first := c.itemStart width
  let total := saturated (width.bytes * count)
  if first + total ≤ c.region.capacity then .ok (first, { c with offset := first + total })
  else .error (.overflow (saturated (first - c.offset + total)) c.available)

/-- Makes room for bytes as they are and answers the offset of the first. -/
def reserve (c : Cursor) (bytes : Nat) : Except Failure (Nat × Cursor) :=
  if c.offset + bytes ≤ c.region.capacity then
    .ok (c.offset, { c with offset := c.offset + bytes })
  else .error (.overflow bytes c.available)

/-- The address of an offset, reduced to 32 bits. -/
def addressOf (c : Cursor) (offset : Nat) : UInt32 :=
  UInt32.ofNat (c.region.base.toNat + offset)

end Cursor

/-- The map, a cursor for each segment and one for the extern area, and the segment selected. -/
structure Allocator where
  map : MemoryMap
  cursors : PerSegment Cursor
  externs : Cursor
  current : Segment
  deriving DecidableEq

/-- What is left of an allocator once nothing can be placed any more. -/
structure Layout where
  map : MemoryMap
  used : PerSegment Nat
  externUsed : Nat
  deriving DecidableEq

/-- Checks accesses to what was laid out. -/
def Layout.validator (l : Layout) : Validator := .ofMap l.map

namespace Allocator

/-- Nothing placed yet, and the text segment selected. -/
def fresh (m : MemoryMap) : Allocator where
  map := m
  cursors := .ofFn fun s => .start (m.region s)
  externs := .start m.externRegion
  current := .text

/-- How far a segment is filled. -/
def cursor (a : Allocator) (s : Segment) : Cursor := a.cursors.get s

/-- The cursor of the selected segment. -/
def active (a : Allocator) : Cursor := a.cursor a.current

/-- Puts a cursor in the place of the selected segment's. -/
def setActive (a : Allocator) (c : Cursor) : Allocator :=
  { a with cursors := a.cursors.set a.current c }

/-- The bytes a segment has used up, padding included. -/
def offset (a : Allocator) (s : Segment) : Nat := (a.cursor s).offset

/-- The next address in the selected segment. -/
def address (a : Allocator) : Except Error UInt32 :=
  (a.active.addressAt a.active.offset).mapError (Cursor.Failure.toError a.current)

/-- Selects a segment and switches its automatic alignment on. -/
def select (a : Allocator) (s : Segment) : Allocator :=
  { a with current := s, cursors := a.cursors.set s { a.cursor s with autoAlign := true } }

/-- Aligns the selected segment to two to the `exponent` and answers the address reached. -/
def align (a : Allocator) (exponent : Nat) : Except Error (UInt32 × Allocator) := do
  let width ← Width.ofExponent exponent
  let (address, cursor) ← (a.active.align width).mapError (Cursor.Failure.toError a.current)
  return (address, a.setActive cursor)

/-- The items of one width that follow each other from an offset. -/
def items (segment : Segment) (cursor : Cursor) (width : Width) (first count : Nat) :
    List Allocation :=
  (List.range count).map fun i =>
    ⟨segment, cursor.addressOf (first + i * width.bytes), UInt32.ofNat width.bytes⟩

/-- Places items of one width in the selected segment and answers them in order. -/
def emit (a : Allocator) (width : Width) (count : Nat) :
    Except Error (List Allocation × Allocator) := do
  let (first, cursor) ← (a.active.emit width count).mapError (Cursor.Failure.toError a.current)
  return (items a.current cursor width first count, a.setActive cursor)

/-- Takes bytes of the selected segment as they come, with no padding before them. -/
def reserve (a : Allocator) (bytes : UInt32) : Except Error (Allocation × Allocator) := do
  let (first, cursor) ← (a.active.reserve bytes.toNat).mapError (Cursor.Failure.toError a.current)
  return (⟨a.current, cursor.addressOf first, bytes⟩, a.setActive cursor)

/-- Externs count as data, whichever segment is selected. -/
def reserveExtern (a : Allocator) (bytes : UInt32) : Except Error (Allocation × Allocator) := do
  let (first, cursor) ← (a.externs.reserve bytes.toNat).mapError (Cursor.Failure.toError .data)
  return (⟨.data, cursor.addressOf first, bytes⟩, { a with externs := cursor })

/-- Keeps the map and how much of each area was used. -/
def finish (a : Allocator) : Layout where
  map := a.map
  used := .ofFn a.offset
  externUsed := a.externs.offset

/-! ### Runs of operations -/

/-- A call that an allocator can be asked to carry out. -/
inductive Operation where
  | select (segment : Segment)
  | align (exponent : Nat)
  | emit (width : Width) (count : Nat)
  | reserve (bytes : UInt32)
  | reserveExtern (bytes : UInt32)
  deriving DecidableEq, Repr

/-- What an operation answers. -/
inductive Outcome where
  | selected
  | aligned (address : UInt32)
  | emitted (items : List Allocation)
  | reserved (item : Allocation)
  deriving DecidableEq, Repr

/-- Carries an operation out; the allocator in the answer is the one after it. -/
def perform (a : Allocator) : Operation → Except Error (Outcome × Allocator)
  | .select segment => .ok (.selected, a.select segment)
  | .align exponent => (a.align exponent).map fun (address, a) => (.aligned address, a)
  | .emit width count => (a.emit width count).map fun (items, a) => (.emitted items, a)
  | .reserve bytes => (a.reserve bytes).map fun (item, a) => (.reserved item, a)
  | .reserveExtern bytes => (a.reserveExtern bytes).map fun (item, a) => (.reserved item, a)

/-- The allocator after a call: what the call made of it, or the one before if the call failed. -/
def after {α : Type} (a : Allocator) (call : Except Error (α × Allocator)) :
    Except Error α × Allocator :=
  match call with
  | .ok (answer, next) => (.ok answer, next)
  | .error e => (.error e, a)

/-- The answer to an operation and the allocator that goes on, changed or not. -/
def step (a : Allocator) (operation : Operation) : Except Error Outcome × Allocator :=
  a.after (a.perform operation)

/-- The answers to a sequence of operations, failed ones included, and the allocator at the end. -/
def run (a : Allocator) : List Operation → List (Except Error Outcome) × Allocator
  | [] => ([], a)
  | operation :: rest =>
    let (answer, a) := a.step operation
    let (answers, a) := a.run rest
    (answer :: answers, a)

@[simp] theorem active_setActive (a : Allocator) (c : Cursor) : (a.setActive c).active = c := by
  simp [setActive, active, cursor]

theorem cursor_setActive_of_ne (a : Allocator) (c : Cursor) {s : Segment} (h : s ≠ a.current) :
    (a.setActive c).cursor s = a.cursor s :=
  a.cursors.get_set_of_ne c h

@[simp] theorem offset_select (a : Allocator) (s t : Segment) :
    (a.select s).offset t = a.offset t := by
  by_cases h : t = s
  · subst h
    simp [select, offset, cursor]
  · simp [select, offset, cursor, a.cursors.get_set_of_ne _ h]

theorem step_of_error {a : Allocator} {operation : Operation} {e : Error}
    (h : a.perform operation = .error e) : a.step operation = (.error e, a) := by
  simp [step, h, after]

end Allocator

end MipsMemory
