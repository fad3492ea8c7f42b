import MipsMemory.Assembly.Unit
import MipsMemory.Proofs.Allocator.Effect

/-!
Units as runs of an allocator. Main statements: a directive that is carried out asks an allocator
for one operation or none, and a unit that is laid out is a run of operations, which answers exactly
the allocations that its statements reserve.
-/

namespace MipsMemory

namespace Allocator

/-- The operation succeeds with these allocations and leaves that allocator. -/
def Performs (a : Allocator) (operation : Operation) (items : List Allocation) (a' : Allocator) :
    Prop :=
  ∃ outcome, a.perform operation = .ok (outcome, a') ∧ answered (.ok outcome) = items

variable {a a' : Allocator}

theorem performs_emit {width : Width} {count : Nat} {items : List Allocation}
    (h : a.emit width count = .ok (items, a')) : a.Performs (.emit width count) items a' :=
  ⟨.emitted items, map_eq_ok_iff.mpr ⟨_, h, rfl⟩, rfl⟩

theorem performs_reserve {bytes : UInt32} {x : Allocation} (h : a.reserve bytes = .ok (x, a')) :
    a.Performs (.reserve bytes) [x] a' :=
  ⟨.reserved x, map_eq_ok_iff.mpr ⟨_, h, rfl⟩, rfl⟩

theorem performs_reserveExtern {bytes : UInt32} {x : Allocation}
    (h : a.reserveExtern bytes = .ok (x, a')) : a.Performs (.reserveExtern bytes) [x] a' :=
  ⟨.reserved x, map_eq_ok_iff.mpr ⟨_, h, rfl⟩, rfl⟩

theorem performs_align {exponent : Nat} {address : UInt32}
    (h : a.align exponent = .ok (address, a')) : a.Performs (.align exponent) [] a' :=
  ⟨.aligned address, map_eq_ok_iff.mpr ⟨_, h, rfl⟩, rfl⟩

theorem performs_select (a : Allocator) (s : Segment) : a.Performs (.select s) [] (a.select s) :=
  ⟨.selected, rfl, rfl⟩

end Allocator

/-! ## One directive -/

namespace Directive

variable {d : Directive} {operands : List Operand} {a a' : Allocator} {items : List Allocation}

/-- The byte length that an extern declaration gives. -/
def externSize (d : Directive) : List Operand → Except Error UInt32
  | [.text _, .int size] =>
    match unsigned32? size with
    | some size => .ok size
    | none => d.bad .sizeOutOfRange
  | _ => d.bad .notLabelAndSize

theorem apply_externs (h : d.role = .declare .externs) :
    d.apply operands a = (do
      let size ← d.externSize operands
      (a.reserveExtern size).map fun (item, a) => ([item], a)) := by
  simp only [apply, h]
  fun_cases externSize d operands with
  | case1 _ size size' hsize =>
    simp only [hsize]
    rfl
  | case2 _ size hsize =>
    simp only [hsize]
    rfl
  | case3 =>
    split
    · rename_i text size hother
      exact absurd rfl (hother text size)
    · rfl

theorem emitPayload_performs {width : Width} {payload : Payload}
    (h : d.emitPayload a width operands payload = .ok (items, a')) :
    ∃ operation, a.Performs operation items a' := by
  cases payload with
  | numeric kind =>
    simp only [emitPayload] at h
    split at h
    · cases h
    · split at h
      · exact ⟨_, Allocator.performs_emit h⟩
      · cases h
  | text terminated =>
    simp only [emitPayload] at h
    split at h
    · exact ⟨_, Allocator.performs_emit h⟩
    · cases h
  | space =>
    obtain ⟨bytes, -, h⟩ := bind_eq_ok_iff.mp h
    obtain ⟨⟨x, b⟩, hreserve, he⟩ := bind_eq_ok_iff.mp h
    cases he
    exact ⟨_, Allocator.performs_reserve hreserve⟩

/-- A directive that is carried out asks for nothing, or for one operation whose allocations it
answers. -/
theorem apply_performs (h : d.apply operands a = .ok (items, a')) :
    (items = [] ∧ a' = a) ∨ ∃ operation, a.Performs operation items a' := by
  unfold apply at h
  split at h
  · split at h
    · cases h
      exact .inr ⟨_, a.performs_select _⟩
    · cases h
  · obtain ⟨exponent, -, h⟩ := bind_eq_ok_iff.mp h
    obtain ⟨⟨address, b⟩, halign, he⟩ := bind_eq_ok_iff.mp h
    cases he
    exact .inr ⟨_, Allocator.performs_align halign⟩
  · split at h
    · cases h
    · exact .inr (emitPayload_performs h)
  · split at h
    · split at h
      · obtain ⟨⟨x, b⟩, hreserve, he⟩ := map_eq_ok_iff.mp h
        cases he
        exact .inr ⟨_, Allocator.performs_reserveExtern hreserve⟩
      · cases h
    · cases h
  all_goals
    cases h
    exact .inl ⟨rfl, rfl⟩

end Directive

/-! ## Statements in turn -/

namespace Assembly

/-- What statements reserve when they are carried out in turn, up to the first that fails. -/
def reserved : List Statement → Allocator → List Allocation
  | [], _ => []
  | s :: rest, a =>
    match (Directive.lookup s.directive).bind (·.apply s.operands a) with
    | .ok (items, a) => items ++ reserved rest a
    | .error _ => []

theorem apply_of_place {s : Statement} {a a' : Allocator} {bindings : List Binding}
    (h : place s a = .ok (bindings, a')) :
    ∃ d items, Directive.lookup s.directive = .ok d ∧ d.apply s.operands a = .ok (items, a') := by
  obtain ⟨d, hd, h⟩ := bind_eq_ok_iff.mp h
  obtain ⟨⟨items, b⟩, hitems, h⟩ := bind_eq_ok_iff.mp h
  obtain ⟨labels, -, he⟩ := bind_eq_ok_iff.mp h
  cases he
  exact ⟨d, items, hd, hitems⟩

/-- Statements that are carried out in turn are a run, whose answers hold what they reserve. -/
theorem exists_run_of_placeAll {statements : List Statement} {index : Nat} {a a' : Allocator}
    {bindings : List Binding} (h : placeAll index statements a = .ok (bindings, a')) :
    ∃ operations, (a.run operations).1.flatMap Allocator.answered = reserved statements a ∧
      (a.run operations).2 = a' := by
  induction statements generalizing index a bindings with
  | nil =>
    cases h
    exact ⟨[], rfl, rfl⟩
  | cons s rest ih =>
    obtain ⟨⟨here, b⟩, hplace, h⟩ := bind_eq_ok_iff.mp h
    obtain ⟨⟨later, c⟩, hrest, he⟩ := bind_eq_ok_iff.mp h
    cases he
    obtain ⟨d, items, hd, happly⟩ := apply_of_place (mapError_eq_ok_iff.mp hplace)
    obtain ⟨operations, hanswers, hrun⟩ := ih hrest
    have hreserved : reserved (s :: rest) a = items ++ reserved rest b := by
      simp only [reserved, hd, Except.bind, happly]
    rw [hreserved, ← hanswers]
    -- a directive that asks for nothing leaves the run of the statements after it as it is
    rcases Directive.apply_performs happly with ⟨rfl, rfl⟩ | ⟨operation, outcome, hp, rfl⟩
    · exact ⟨operations, rfl, hrun⟩
    · refine ⟨operation :: operations, ?_, ?_⟩
      · simp only [Allocator.run, Allocator.step_of_ok hp, List.flatMap_cons]
      · simp only [Allocator.run, Allocator.step_of_ok hp, hrun]

/-- A unit that is laid out is a run of a fresh allocator. -/
theorem exists_run_of_layout {m : MemoryMap} {statements : List Statement} {u : Assembled}
    (h : layout m statements = .ok u) :
    ∃ operations,
      ((Allocator.fresh m).run operations).1.flatMap Allocator.answered =
        reserved statements (.fresh m) ∧
      ((Allocator.fresh m).run operations).2.finish = u.layout := by
  obtain ⟨⟨bindings, a⟩, hplace, rfl⟩ := map_eq_ok_iff.mp h
  obtain ⟨operations, hanswers, hrun⟩ := exists_run_of_placeAll hplace
  exact ⟨operations, hanswers, congrArg Allocator.finish hrun⟩

end Assembly

end MipsMemory
