import MipsMemory.Numeral
import MipsMemory.Segment

/-!
Memory maps: the spans of addresses that make up a simulated address space, the regions segments
are allocated from, the built-in maps and the check of a map. Main statements: the built-in maps
pass the check, and a map that passes it has no inverted span.
-/

namespace MipsMemory

/-- All addresses from the first to the last; empty if the last comes before the first. -/
structure Span where
  first : UInt32
  last : UInt32
  deriving DecidableEq, Repr

namespace Span

/-- The address lies in the span. -/
def Contains (s : Span) (address : UInt32) : Prop :=
  s.first ≤ address ∧ address ≤ s.last

instance (s : Span) (address : UInt32) : Decidable (s.Contains address) :=
  inferInstanceAs (Decidable (_ ∧ _))

end Span

/-- Room to allocate in: a first address and a number of bytes. -/
structure Region where
  base : UInt32
  capacity : Nat
  deriving DecidableEq, Repr

/-- The bytes from a base up to an end, none if the end comes first. -/
def Region.upTo (base : UInt32) (finish : Nat) : Region :=
  ⟨base, finish - base.toNat⟩

/-- A named division of the address space. The last address of a span is the highest one an access
may start at: the last word of a text span, the last byte of any other. -/
structure MemoryMap where
  name : String
  text : Span
  externs : Span
  globalPointer : UInt32
  data : Span
  heapBase : UInt32
  stackPointer : UInt32
  ktext : Span
  kdata : Span
  mmio : Span
  selfModifying : Bool
  deriving DecidableEq, Repr

namespace MemoryMap

/-- The conventional map: user memory below `0x80000000`, the kernel above it. -/
def standard : MemoryMap where
  name := "default"
  text := ⟨0x00400000, 0x0ffffffc⟩
  externs := ⟨0x10000000, 0x1000ffff⟩
  globalPointer := 0x10008000
  data := ⟨0x10010000, 0x7fffffff⟩
  heapBase := 0x10040000
  stackPointer := 0x7fffeffc
  ktext := ⟨0x80000000, 0x8ffffffc⟩
  kdata := ⟨0x90000000, 0xfffeffff⟩
  mmio := ⟨0xffff0000, 0xffffffff⟩
  selfModifying := false

/-- A map of 32 KiB with its data segment at address zero. -/
def compactDataAtZero : MemoryMap where
  name := "compact-data-at-zero"
  text := ⟨0x3000, 0x3ffc⟩
  externs := ⟨0x1000, 0x1fff⟩
  globalPointer := 0x1800
  data := ⟨0x0000, 0x2fff⟩
  heapBase := 0x2000
  stackPointer := 0x2ffc
  ktext := ⟨0x4000, 0x4ffc⟩
  kdata := ⟨0x5000, 0x7eff⟩
  mmio := ⟨0x7f00, 0x7fff⟩
  selfModifying := false

/-- A map of 32 KiB with its text segment at address zero. -/
def compactTextAtZero : MemoryMap where
  name := "compact-text-at-zero"
  text := ⟨0x0000, 0x0ffc⟩
  externs := ⟨0x1000, 0x1fff⟩
  globalPointer := 0x1800
  data := ⟨0x2000, 0x3fff⟩
  heapBase := 0x3000
  stackPointer := 0x3ffc
  ktext := ⟨0x4000, 0x4ffc⟩
  kdata := ⟨0x5000, 0x7eff⟩
  mmio := ⟨0x7f00, 0x7fff⟩
  selfModifying := false

/-- The built-in maps; the first one is used when none is asked for. -/
def presets : List MemoryMap := [standard, compactDataAtZero, compactTextAtZero]

/-- The built-in map of a name. -/
def preset? (name : String) : Option MemoryMap :=
  presets.find? (·.name = name)

/-! ### Spans that may be accessed -/

/-- Externs, static data, heap and stack. -/
def userData (m : MemoryMap) : Span :=
  ⟨min m.externs.first m.data.first, m.data.last⟩

/-! ### Regions that may be allocated from -/

/-- One past the last byte of the word an address lies in. -/
def wordEnd (address : UInt32) : Nat :=
  (address ||| 3).toNat + 1

/-- Static data stops at the heap, or earlier at an extern area above it. -/
def staticDataEnd (m : MemoryMap) : Nat :=
  if m.data.first < m.externs.first then min m.heapBase.toNat m.externs.first.toNat
  else m.heapBase.toNat

/-- Where a segment may be allocated. All but static data reach to the end of a word. -/
def region (m : MemoryMap) : Segment → Region
  | .text => .upTo m.text.first (wordEnd m.text.last)
  | .data => .upTo m.data.first m.staticDataEnd
  | .kernelText => .upTo m.ktext.first (wordEnd m.ktext.last)
  | .kernelData => .upTo m.kdata.first (wordEnd m.kdata.last)

/-- Where externs may be allocated, to the last byte of their span. -/
def externRegion (m : MemoryMap) : Region :=
  .upTo m.externs.first (m.externs.last.toNat + 1)

/-! ### The check -/

/-- What makes a map unusable. -/
inductive Defect where
  | spanInverted (region : String) (span : Span)
  | heapBelowData (heap data : UInt32)
  | dataInsideExterns (data : UInt32) (externs : Span)
  deriving DecidableEq, Repr

open Numeral in
/-- What the user is told of the defect. -/
def Defect.message : Defect → String
  | .spanInverted region span =>
    region ++ " base " ++ hex span.first ++ " is above its limit " ++ hex span.last
  | .heapBelowData heap data =>
    "heap base " ++ hex heap ++ " is below data base " ++ hex data
  | .dataInsideExterns data externs =>
    "data base " ++ hex data ++ " lies inside the extern area " ++ hex externs.first ++ "..=" ++
      hex externs.last

/-- The spans of a map by name, in the order they are checked. -/
def namedSpans (m : MemoryMap) : List (String × Span) :=
  [("text", m.text), ("extern", m.externs), ("data", m.data), ("ktext", m.ktext),
    ("kdata", m.kdata), ("mmio", m.mmio)]

/-- The first defect of a map: inverted spans come before a misplaced heap, and that before static
data that begins among the externs. -/
def defect? (m : MemoryMap) : Option Defect :=
  match m.namedSpans.find? fun (_, span) => span.last < span.first with
  | some (region, span) => some (.spanInverted region span)
  | none =>
    if m.heapBase < m.data.first then some (.heapBelowData m.heapBase m.data.first)
    else if m.externs.Contains m.data.first then
      some (.dataInsideExterns m.data.first m.externs)
    else none

theorem defect?_of_mem_presets {m : MemoryMap} (h : m ∈ presets) : m.defect? = none := by
  simp only [presets, List.mem_cons, List.not_mem_nil, or_false] at h
  rcases h with rfl | rfl | rfl <;> decide

theorem first_le_last_of_defect?_eq_none {m : MemoryMap} (h : m.defect? = none) {region : String}
    {span : Span} (hs : (region, span) ∈ m.namedSpans) : span.first ≤ span.last := by
  unfold defect? at h
  split at h
  · simp at h
  · rename_i hf
    have := List.find?_eq_none.mp hf _ hs
    simpa using this

end MemoryMap

end MipsMemory
