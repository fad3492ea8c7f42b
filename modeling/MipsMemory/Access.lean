import MipsMemory.MemoryMap
import MipsMemory.Width

/-!
Which accesses a memory map allows. An access is checked for alignment first and then for its start
address. Main statements: an allowed access is answered by its own address, an access fails as
unaligned exactly if its address is, and the spans taken out of a map decide as it does.
-/

namespace MipsMemory

/-- What an access does. -/
inductive AccessKind where
  | load
  | store
  deriving DecidableEq, Repr

namespace AccessKind

/-- The kind as messages and command lines spell it. -/
def name : AccessKind → String
  | load => "load"
  | store => "store"

/-- The kind that is spelled so. -/
def ofName? : String → Option AccessKind
  | "load" => some load
  | "store" => some store
  | _ => none

/-- The exception code of a faulting access. -/
def cause : AccessKind → Nat
  | load => 4
  | store => 5

@[simp] theorem ofName?_name (k : AccessKind) : ofName? k.name = some k := by
  cases k <;> rfl

end AccessKind

/-- Why an access is refused. -/
inductive Fault where
  | unaligned (width : Width)
  | outOfRange
  deriving DecidableEq, Repr

/-- A refused access. -/
structure AddressError where
  address : UInt32
  kind : AccessKind
  fault : Fault
  deriving DecidableEq, Repr

/-- The text of a refusal, which names the access and its address. -/
def AddressError.message (e : AddressError) : String :=
  match e.fault with
  | .unaligned width =>
    e.kind.name ++ " address not aligned on " ++ width.name ++ " boundary " ++
      Numeral.hex e.address
  | .outOfRange => e.kind.name ++ " address out of range " ++ Numeral.hex e.address

/-- Allows an aligned access that starts in one of the spans. -/
def checkAccess (spans : List Span) (address : UInt32) (kind : AccessKind) (width : Width) :
    Except AddressError UInt32 :=
  if ¬ width.IsAligned address.toNat then .error ⟨address, kind, .unaligned width⟩
  else if ∃ span ∈ spans, span.Contains address then .ok address
  else .error ⟨address, kind, .outOfRange⟩

theorem checkAccess_eq_ok_iff {spans : List Span} {address result : UInt32} {kind : AccessKind}
    {width : Width} :
    checkAccess spans address kind width = .ok result ↔
      result = address ∧ width.IsAligned address.toNat ∧
        ∃ span ∈ spans, span.Contains address := by
  unfold checkAccess
  split
  · simp_all
  · split
    · rename_i hs
      simp_all [eq_comm]
    · rename_i hs
      simp [hs]

theorem checkAccess_eq_unaligned_iff {spans : List Span} {address : UInt32} {kind : AccessKind}
    {width : Width} :
    checkAccess spans address kind width = .error ⟨address, kind, .unaligned width⟩ ↔
      ¬ width.IsAligned address.toNat := by
  unfold checkAccess
  split
  · simp_all
  · split <;> simp_all

namespace MemoryMap

/-- Where instructions are fetched from. -/
def fetchSpans (m : MemoryMap) : List Span := [m.text, m.ktext]

/-- Where data is accessed. -/
def dataSpans (m : MemoryMap) : List Span := [m.userData, m.kdata, m.mmio]

/-- Where an access may start: loads reach everything, stores reach instructions only in a map for
self-modifying code. -/
def accessSpans (m : MemoryMap) : AccessKind → List Span
  | .load => m.fetchSpans ++ m.dataSpans
  | .store => if m.selfModifying then m.fetchSpans ++ m.dataSpans else m.dataSpans

/-- Allows an access or refuses it. -/
def validate (m : MemoryMap) (address : UInt32) (kind : AccessKind) (width : Width) :
    Except AddressError UInt32 :=
  checkAccess (m.accessSpans kind) address kind width

/-- An instruction fetch is a word load from a text span. -/
def validateFetch (m : MemoryMap) (address : UInt32) : Except AddressError UInt32 :=
  checkAccess m.fetchSpans address .load .word

end MemoryMap

/-- The spans of a map that accesses are checked against, taken out of it once and for all. -/
structure Validator where
  load : List Span
  store : List Span
  fetch : List Span
  deriving DecidableEq, Repr

namespace Validator

/-- The validator of a map. -/
def ofMap (m : MemoryMap) : Validator := ⟨m.accessSpans .load, m.accessSpans .store, m.fetchSpans⟩

/-- Where an access of a kind may start. -/
def spans (v : Validator) : AccessKind → List Span
  | .load => v.load
  | .store => v.store

/-- Allows an access or refuses it. -/
def validate (v : Validator) (address : UInt32) (kind : AccessKind) (width : Width) :
    Except AddressError UInt32 :=
  checkAccess (v.spans kind) address kind width

/-- Allows an instruction fetch or refuses it. -/
def validateFetch (v : Validator) (address : UInt32) : Except AddressError UInt32 :=
  checkAccess v.fetch address .load .word

@[simp] theorem validate_ofMap (m : MemoryMap) (address : UInt32) (kind : AccessKind)
    (width : Width) : (ofMap m).validate address kind width = m.validate address kind width := by
  cases kind <;> rfl

@[simp] theorem validateFetch_ofMap (m : MemoryMap) (address : UInt32) :
    (ofMap m).validateFetch address = m.validateFetch address := rfl

end Validator

end MipsMemory
