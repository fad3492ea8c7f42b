import MipsMemory.Assembly.Apply
import MipsMemory.Assembly.SymbolTable

/-!
Laying out a whole unit: its statements one after another, each with the bindings it makes. Main
statement: statements are laid out from left to right, so a unit can be split anywhere.
-/

namespace MipsMemory

/-- A laid-out unit. -/
structure Assembled where
  bindings : List Binding
  layout : Layout
  deriving DecidableEq

/-- The symbols of a unit after all its statements. -/
def Assembled.table (u : Assembled) : SymbolTable := .ofBindings u.bindings

namespace Assembly

/-- The first statement that could not be laid out, counted from zero. -/
structure Failure where
  index : Nat
  error : Error
  deriving DecidableEq, Repr

/-- An extern declaration names what it reserves by its first operand. -/
def declared (d : Directive) (operands : List Operand) (items : List Allocation) : List Binding :=
  match d.role, operands, items with
  | .declare .externs, .text name :: _, item :: _ => [⟨name, item⟩]
  | _, _, _ => []

/-- A label names the first item of its statement, or the next address if there is none. -/
def labelled (label : Option String) (items : List Allocation) (a : Allocator) :
    Except Error (List Binding) :=
  match label, items with
  | none, _ => .ok []
  | some name, item :: _ => .ok [⟨name, item⟩]
  | some name, [] => a.address.map fun address => [⟨name, ⟨a.current, address, 0⟩⟩]

/-- Carries one statement out; the answer lists the bindings it makes. -/
def place (s : Statement) (a : Allocator) : Except Error (List Binding × Allocator) := do
  let d ← Directive.lookup s.directive
  let (items, a) ← d.apply s.operands a
  let labels ← labelled s.label items a
  return (declared d s.operands items ++ labels, a)

/-- Carries statements out in turn. The index is that of the first. -/
def placeAll (index : Nat) : List Statement → Allocator → Except Failure (List Binding × Allocator)
  | [], a => .ok ([], a)
  | s :: rest, a => do
    let (here, a) ← (place s a).mapError (Failure.mk index)
    let (later, a) ← placeAll (index + 1) rest a
    return (here ++ later, a)

/-- Lays statements out under a map. -/
def layout (m : MemoryMap) (statements : List Statement) : Except Failure Assembled :=
  (placeAll 0 statements (.fresh m)).map fun (bindings, a) => ⟨bindings, a.finish⟩

theorem placeAll_append (index : Nat) (xs ys : List Statement) (a : Allocator) :
    placeAll index (xs ++ ys) a = (do
      let (before, a) ← placeAll index xs a
      let (later, a) ← placeAll (index + xs.length) ys a
      return (before ++ later, a)) := by
  induction xs generalizing index a with
  | nil =>
    simp only [List.nil_append, List.length_nil, Nat.add_zero, placeAll, bind, Except.bind]
    rcases placeAll index ys a with e | ⟨later, b⟩ <;> rfl
  | cons x xs ih =>
    simp only [List.cons_append, List.length_cons, placeAll, ih, bind, Except.bind, pure,
      Except.pure]
    rcases (place x a).mapError (Failure.mk index) with e | ⟨here, b⟩
    · rfl
    · simp only [Nat.add_assoc, Nat.add_comm 1]
      rcases hb : placeAll (index + 1) xs b with e | ⟨before, c⟩
      · rfl
      · rcases hc : placeAll (index + (xs.length + 1)) ys c with e | ⟨later, d⟩ <;>
          simp [hc]

end Assembly

end MipsMemory
