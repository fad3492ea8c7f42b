import MipsMemory.Allocator

/-!
Symbols in the order of their first definition; names defined again are noted. Main statements: a
symbol stands for its last definition, and a redefinition keeps the place of the first one.
-/

namespace MipsMemory

/-- A name given to a piece of memory. -/
structure Binding where
  name : String
  item : Allocation
  deriving DecidableEq, Repr

/-- The symbols in the order they were first bound, and the names bound again, one entry for each
time. -/
structure SymbolTable where
  symbols : List Binding
  redefined : List String
  deriving DecidableEq, Repr

namespace SymbolTable

/-- Nothing bound. -/
def empty : SymbolTable := ⟨[], []⟩

/-- Replaces the symbol of the same name in place, or adds one at the end. -/
def put (b : Binding) : List Binding → List Binding
  | [] => [b]
  | x :: xs => if x.name = b.name then b :: xs else x :: put b xs

/-- What a name stands for by now. -/
def get? (t : SymbolTable) (name : String) : Option Allocation :=
  (t.symbols.find? (·.name = name)).map Binding.item

/-- Binds a name. A name that was bound before keeps its place, takes the new item and is noted as
redefined. -/
def bind (t : SymbolTable) (b : Binding) : SymbolTable where
  symbols := put b t.symbols
  redefined := if (t.get? b.name).isSome then t.redefined ++ [b.name] else t.redefined

/-- The table after bindings made one after another. -/
def ofBindings (bindings : List Binding) : SymbolTable := bindings.foldl bind empty

theorem find?_put (b : Binding) (bs : List Binding) (name : String) :
    (put b bs).find? (·.name = name) =
      if b.name = name then some b else bs.find? (·.name = name) := by
  induction bs with
  | nil => by_cases h : b.name = name <;> simp [put, h]
  | cons x xs ih =>
    by_cases hx : x.name = b.name
    · by_cases h : b.name = name
      · simp [put, hx, h]
      · have hn : ¬ x.name = name := fun e => h (hx.symm.trans e)
        simp [put, hx, h]
    · by_cases h : x.name = name
      · have hb : ¬ b.name = name := fun e => hx (h.trans e.symm)
        rw [put, if_neg hx]
        simp [h, hb]
      · simp [put, hx, h, ih]

theorem names_put (b : Binding) (bs : List Binding) :
    (put b bs).map Binding.name =
      if b.name ∈ bs.map Binding.name then bs.map Binding.name
      else bs.map Binding.name ++ [b.name] := by
  induction bs with
  | nil => simp [put]
  | cons x xs ih =>
    by_cases hx : x.name = b.name
    · simp [put, hx]
    · have hb : ¬ b.name = x.name := fun e => hx e.symm
      rw [put, if_neg hx, List.map_cons, ih, List.map_cons]
      simp only [List.mem_cons, hb, false_or]
      split <;> rfl

theorem get?_bind (t : SymbolTable) (b : Binding) (name : String) :
    (t.bind b).get? name = if b.name = name then some b.item else t.get? name := by
  simp only [get?, bind, find?_put]
  split <;> rfl

/-- A binding made last is the one in force. -/
theorem get?_ofBindings_concat (bindings : List Binding) (b : Binding) :
    (ofBindings (bindings ++ [b])).get? b.name = some b.item := by
  rw [ofBindings, List.foldl_append, List.foldl_cons, List.foldl_nil, get?_bind, if_pos rfl]

end SymbolTable

end MipsMemory
