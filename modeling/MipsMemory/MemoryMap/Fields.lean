import MipsMemory.MemoryMap

/-!
The addresses of a memory map by their keys in a configuration. Main statements: a map is determined
by its name, its flag and these addresses, and keys do not repeat.
-/

namespace MipsMemory.MemoryMap

/-- One address of a map, to be read and replaced. -/
structure Field where
  key : String
  get : MemoryMap → UInt32
  set : UInt32 → MemoryMap → MemoryMap

/-- The key of the name. -/
def nameKey : String := "name"

/-- The key of the switch that opens text to stores. -/
def selfModifyingKey : String := "self_modifying_code"

/-- The addresses in the order they are written. -/
def fields : List Field := [
  ⟨"text_base", fun m => m.text.first, fun v m => { m with text.first := v }⟩,
  ⟨"text_limit", fun m => m.text.last, fun v m => { m with text.last := v }⟩,
  ⟨"extern_base", fun m => m.externs.first, fun v m => { m with externs.first := v }⟩,
  ⟨"extern_limit", fun m => m.externs.last, fun v m => { m with externs.last := v }⟩,
  ⟨"global_pointer", fun m => m.globalPointer, fun v m => { m with globalPointer := v }⟩,
  ⟨"data_base", fun m => m.data.first, fun v m => { m with data.first := v }⟩,
  ⟨"heap_base", fun m => m.heapBase, fun v m => { m with heapBase := v }⟩,
  ⟨"stack_pointer", fun m => m.stackPointer, fun v m => { m with stackPointer := v }⟩,
  ⟨"data_limit", fun m => m.data.last, fun v m => { m with data.last := v }⟩,
  ⟨"ktext_base", fun m => m.ktext.first, fun v m => { m with ktext.first := v }⟩,
  ⟨"ktext_limit", fun m => m.ktext.last, fun v m => { m with ktext.last := v }⟩,
  ⟨"kdata_base", fun m => m.kdata.first, fun v m => { m with kdata.first := v }⟩,
  ⟨"kdata_limit", fun m => m.kdata.last, fun v m => { m with kdata.last := v }⟩,
  ⟨"mmio_base", fun m => m.mmio.first, fun v m => { m with mmio.first := v }⟩,
  ⟨"mmio_limit", fun m => m.mmio.last, fun v m => { m with mmio.last := v }⟩]

/-- Every key, in the order they are written. -/
def keys : List String := nameKey :: fields.map Field.key ++ [selfModifyingKey]

theorem nodup_keys : keys.Nodup := by decide

theorem get_set {f : Field} (h : f ∈ fields) (v : UInt32) (m : MemoryMap) :
    f.get (f.set v m) = v := by
  simp only [fields, List.mem_cons, List.not_mem_nil, or_false] at h
  rcases h with rfl | rfl | rfl | rfl | rfl | rfl | rfl | rfl | rfl | rfl | rfl | rfl | rfl | rfl |
    rfl <;> rfl

theorem eq_of_fields {m n : MemoryMap} (hn : m.name = n.name)
    (hs : m.selfModifying = n.selfModifying) (h : ∀ f ∈ fields, f.get m = f.get n) : m = n := by
  obtain ⟨_, ⟨_, _⟩, ⟨_, _⟩, _, ⟨_, _⟩, _, _, ⟨_, _⟩, ⟨_, _⟩, ⟨_, _⟩, _⟩ := m
  obtain ⟨_, ⟨_, _⟩, ⟨_, _⟩, _, ⟨_, _⟩, _, _, ⟨_, _⟩, ⟨_, _⟩, ⟨_, _⟩, _⟩ := n
  simp_all [fields]

end MipsMemory.MemoryMap
