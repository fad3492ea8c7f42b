import MipsMemory.Proofs.Allocator.Effect

/-!
A run as one area sees it. Every operation works in one area: in that of the segment it selects, in
that of the segment selected before, or in the extern area. `Cursor.run` carries operations out on
a single cursor that knows of no other. Main statements: an operation is what it is on the cursor of
its area alone, so that the operations of an area, taken out of any run, answer and leave there what
they do by themselves, and two runs that agree in them agree in all that can be seen of the area.
-/

namespace MipsMemory

open Allocator (Operation Outcome)

/-! ## A cursor by itself -/

namespace Cursor

/-- An operation on one cursor, whose allocations and failures report the segment `shown`. -/
def perform (shown : Segment) (c : Cursor) : Operation → Except Error (Outcome × Cursor)
  | .select _ => .ok (.selected, { c with autoAlign := true })
  | .align exponent => do
    let width ← Width.ofExponent exponent
    let (address, c) ← (c.align width).mapError (Failure.toError shown)
    return (.aligned address, c)
  | .emit width count => do
    let (first, c) ← (c.emit width count).mapError (Failure.toError shown)
    return (.emitted (Allocator.items shown c width first count), c)
  | .reserve bytes | .reserveExtern bytes => do
    let (first, c) ← (c.reserve bytes.toNat).mapError (Failure.toError shown)
    return (.reserved ⟨shown, c.addressOf first, bytes⟩, c)

/-- The answer and the cursor afterwards; a failed operation leaves the cursor alone. -/
def step (shown : Segment) (c : Cursor) (operation : Operation) : Except Error Outcome × Cursor :=
  match c.perform shown operation with
  | .ok (outcome, c) => (.ok outcome, c)
  | .error e => (.error e, c)

/-- The answers to a sequence of operations on one cursor, and the cursor at the end. -/
def run (shown : Segment) (c : Cursor) :
    List Operation → List (Except Error Outcome) × Cursor
  | [] => ([], c)
  | operation :: rest =>
    let (answer, c) := c.step shown operation
    let (answers, c) := c.run shown rest
    (answer :: answers, c)

end Cursor

namespace Allocator

/-! ## The area of an operation -/

/-- The segment that is selected once an operation was carried out. -/
def Operation.selected (current : Segment) : Operation → Segment
  | .select s => s
  | .align _ | .emit _ _ | .reserve _ | .reserveExtern _ => current

/-- The area that an operation works in while a segment is selected. -/
def Operation.target (current : Segment) : Operation → Area
  | .select s => .segment s
  | .align _ | .emit _ _ | .reserve _ => .segment current
  | .reserveExtern _ => .externs

/-- Of one entry for each operation, those that belong to the operations of an area. -/
def project {α : Type} (area : Area) (current : Segment) : List Operation → List α → List α
  | operation :: operations, x :: xs =>
    let rest := project area (operation.selected current) operations xs
    if operation.target current = area then x :: rest else rest
  | _, _ => []

/-- Puts a cursor in the place of an area's. -/
def setAreaCursor (a : Allocator) (area : Area) (c : Cursor) : Allocator :=
  match area with
  | .segment s => { a with cursors := a.cursors.set s c }
  | .externs => { a with externs := c }

theorem areaCursor_setAreaCursor (a : Allocator) (area other : Area) (c : Cursor) :
    (a.setAreaCursor area c).areaCursor other = if other = area then c else a.areaCursor other := by
  cases area with
  | externs => cases other <;> simp [setAreaCursor, areaCursor, cursor]
  | segment s =>
    cases other with
    | externs => simp [setAreaCursor, areaCursor]
    | segment t =>
      by_cases h : t = s
      · subst h
        simp [setAreaCursor, areaCursor, cursor]
      · simp [setAreaCursor, areaCursor, cursor, h, a.cursors.get_set_of_ne c h]

@[simp] theorem setAreaCursor_self (a : Allocator) (area : Area) :
    a.setAreaCursor area (a.areaCursor area) = a := by
  cases area with
  | externs => rfl
  | segment s => simp [setAreaCursor, areaCursor, cursor]

theorem map_setAreaCursor (a : Allocator) (area : Area) (c : Cursor) :
    (a.setAreaCursor area c).map = a.map := by
  cases area <;> rfl

/-- Which segment is selected makes no difference to what the areas hold. -/
theorem areaCursor_selected (a : Allocator) (s : Segment) (area : Area) :
    { a with current := s }.areaCursor area = a.areaCursor area := by
  cases area <;> rfl

/-! ## Operations -/

/-- Of the whole allocator an operation reads the cursor of its area and writes that cursor and the
selected segment. -/
theorem perform_eq (a : Allocator) (operation : Operation) :
    a.perform operation =
      ((a.areaCursor (operation.target a.current)).perform
        (operation.target a.current).shown operation).map fun (outcome, c) =>
          (outcome, { a.setAreaCursor (operation.target a.current) c with
            current := operation.selected a.current }) := by
  cases operation with
  | select s => rfl
  | align exponent =>
    simp only [perform, align, Cursor.perform, Operation.target, areaCursor, active]
    cases Width.ofExponent exponent with
    | error e => rfl
    | ok width =>
      simp only [ok_bind]
      cases (a.cursor a.current).align width <;> rfl
  | emit width count =>
    simp only [perform, emit, Cursor.perform, Operation.target, areaCursor, active]
    cases (a.cursor a.current).emit width count <;> rfl
  | reserve bytes =>
    simp only [perform, reserve, Cursor.perform, Operation.target, areaCursor, active]
    cases (a.cursor a.current).reserve bytes.toNat <;> rfl
  | reserveExtern bytes =>
    simp only [perform, reserveExtern, Cursor.perform, Operation.target, areaCursor]
    cases a.externs.reserve bytes.toNat <;> rfl

/-- What fails on the cursor of its area fails, and leaves the allocator alone. -/
theorem step_of_perform_eq_error {a : Allocator} {operation : Operation} {area : Area} {e : Error}
    (htarget : operation.target a.current = area)
    (h : (a.areaCursor area).perform area.shown operation = .error e) :
    a.step operation = (.error e, a) := by
  subst htarget
  refine step_of_error ?_
  rw [perform_eq]
  exact map_eq_error_iff.mpr h

theorem selected_of_error {shown : Segment} {c : Cursor} {operation : Operation} {e : Error}
    (h : c.perform shown operation = .error e) (current : Segment) :
    operation.selected current = current := by
  cases operation with
  | select s => cases h
  | align | emit | reserve | reserveExtern => rfl

/-- And so does a step: what fails leaves the cursor, and selecting a segment does not fail. -/
theorem step_eq (a : Allocator) (operation : Operation) :
    a.step operation =
      let area := operation.target a.current
      let (answer, c) := (a.areaCursor area).step area.shown operation
      (answer, { a.setAreaCursor area c with current := operation.selected a.current }) := by
  simp only [step, perform_eq, Cursor.step]
  cases h : (a.areaCursor (operation.target a.current)).perform
      (operation.target a.current).shown operation with
  | error e =>
    simp only [setAreaCursor_self, selected_of_error h]
    rfl
  | ok result => rfl

theorem current_step (a : Allocator) (operation : Operation) :
    (a.step operation).2.current = operation.selected a.current := by
  rw [step_eq]

theorem areaCursor_step (a : Allocator) (operation : Operation) (area : Area) :
    (a.step operation).2.areaCursor area =
      if operation.target a.current = area then
        ((a.areaCursor area).step area.shown operation).2
      else a.areaCursor area := by
  rw [step_eq, areaCursor_selected, areaCursor_setAreaCursor]
  by_cases h : area = operation.target a.current
  · subst h
    rw [if_pos rfl]
  · rw [if_neg h, if_neg (Ne.symm h)]

theorem answer_step {a : Allocator} {operation : Operation} {area : Area}
    (h : operation.target a.current = area) :
    (a.step operation).1 = ((a.areaCursor area).step area.shown operation).1 := by
  subst h
  rw [step_eq]

/-! ## Runs -/

/-- The operations of an area answer in a run what they answer by themselves, and leave its cursor
as they leave it by themselves. -/
theorem project_run (a : Allocator) (area : Area) (operations : List Operation) :
    (project area a.current operations (a.run operations).1,
        (a.run operations).2.areaCursor area) =
      (a.areaCursor area).run area.shown (project area a.current operations operations) := by
  induction operations generalizing a with
  | nil => rfl
  | cons operation operations ih =>
    have hrest := ih (a.step operation).2
    rw [current_step, areaCursor_step] at hrest
    simp only [run, project]
    by_cases h : operation.target a.current = area
    · rw [if_pos h] at hrest
      simp only [if_pos h, Cursor.run, answer_step h, ← hrest]
    · rw [if_neg h] at hrest
      simp only [if_neg h, ← hrest]

/-- Two runs that agree in the operations of an area agree in their answers and in what becomes of
the area, whatever else they do and in whatever order. -/
theorem areas_independent (m : MemoryMap) (area : Area) {xs ys : List Operation}
    (h : project area .text xs xs = project area .text ys ys) :
    project area .text xs ((fresh m).run xs).1 = project area .text ys ((fresh m).run ys).1 ∧
      ((fresh m).run xs).2.areaCursor area = ((fresh m).run ys).2.areaCursor area := by
  have hxs := project_run (fresh m) area xs
  have hys := project_run (fresh m) area ys
  have hcurrent : (fresh m).current = .text := rfl
  rw [hcurrent] at hxs hys
  rw [h, ← hys, Prod.mk.injEq] at hxs
  exact hxs

/-- Leaving static data while its automatic alignment is off, and coming back, does the same whether
kernel data is filled in between or the externs are. -/
theorem areas_independent_data :
    let xs : List Operation := [.select .data, .align 0, .emit .byte 3, .select .kernelData,
      .emit .double 2, .align 0, .select .data, .emit .word 1, .reserve 0xffffffff]
    let ys : List Operation := [.emit .word 1, .select .data, .reserveExtern 5, .align 0,
      .emit .byte 3, .select .text, .select .data, .reserveExtern 9, .emit .word 1,
      .reserve 0xffffffff]
    let data := Area.segment .data
    let m := MemoryMap.standard
    project data .text xs xs = project data .text ys ys ∧
      project data .text xs ((fresh m).run xs).1 = project data .text ys ((fresh m).run ys).1 ∧
      ((fresh m).run xs).2.areaCursor data = ((fresh m).run ys).2.areaCursor data := by
  intro xs ys data m
  have h : project data .text xs xs = project data .text ys ys := rfl
  exact ⟨h, areas_independent m data h⟩

end Allocator

end MipsMemory
