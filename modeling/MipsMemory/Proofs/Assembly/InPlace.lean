import MipsMemory.Proofs.Allocator.Frame
import MipsMemory.Proofs.Allocator.InPlace
import MipsMemory.Proofs.Assembly.Operations

/-!
Directives carried out on an allocator that is changed in place. Main statement: an operation or a
directive that fails leaves the allocator as it was in every component, though nothing is undone,
and one that succeeds changes no more than its kind allows.
-/

namespace MipsMemory

namespace Directive

open Procedure (exec settle)

/-! ## In place -/

/-- The operands are checked before anything is assigned. -/
def emitPayloadInPlace (d : Directive) (width : Width) (operands : List Operand) :
    Payload → InPlace (List Allocation)
  | .numeric kind =>
    if operands.isEmpty then ofExcept (d.bad .noValues)
    else if operands.all kind.accepts then InPlace.emit width operands.length
    else ofExcept (d.bad .wrongKind)
  | .text terminated =>
    match textLength? terminated operands with
    | some length => InPlace.emit width length
    | none => ofExcept (d.bad .notText)
  | .space => do
    let bytes ← ofExcept (d.singleNumber .countOutOfRange operands)
    let item ← InPlace.reserve bytes
    return [item]

/-- Carries a directive out on an allocator that stays as it is where the directive fails. -/
def applyInPlace (d : Directive) (operands : List Operand) : InPlace (List Allocation) :=
  match d.role with
  | .select segment =>
    if operands.isEmpty then do
      InPlace.select segment
      return []
    else ofExcept (d.bad .segmentAddress)
  | .align => do
    let exponent ← ofExcept (d.singleNumber .exponentOutOfRange operands)
    let _ ← InPlace.align exponent.toNat
    return []
  | .emit width payload => do
    let a ← get
    if a.current.isText then throw (.dataDirectiveInTextSegment d.token)
    else d.emitPayloadInPlace width operands payload
  | .declare .externs => do
    let size ← ofExcept (d.externSize operands)
    let item ← InPlace.reserveExtern size
    return [item]
  | .declare _ | .macroBegin | .macroEnd | .includeFile | .ignored => return []

variable (d : Directive) (operands : List Operand) (a : Allocator)

theorem exec_emitPayloadInPlace (width : Width) (payload : Payload) :
    exec (d.emitPayloadInPlace width operands payload) a =
      settle a (d.emitPayload a width operands payload) := by
  cases payload with
  | numeric kind =>
    simp only [emitPayloadInPlace, emitPayload]
    split
    · rfl
    · split
      · exact InPlace.exec_emit width _ a
      · rfl
  | text terminated =>
    simp only [emitPayloadInPlace, emitPayload]
    cases textLength? terminated operands with
    | none => rfl
    | some length => exact InPlace.exec_emit width length a
  | space =>
    refine Procedure.exec_ofExcept_bind fun bytes => ?_
    rw [Procedure.exec_bind, InPlace.exec_reserve]
    cases a.reserve bytes <;> rfl

theorem exec_applyInPlace :
    exec (d.applyInPlace operands) a = settle a (d.apply operands a) := by
  cases hrole : d.role with
  | select s =>
    simp only [applyInPlace, apply, hrole]
    split
    · simp only [Procedure.exec_bind, InPlace.exec_select]
      rfl
    · rfl
  | emit width payload =>
    simp only [applyInPlace, apply, hrole, Procedure.exec_bind, Procedure.exec_get]
    split
    · rfl
    · exact d.exec_emitPayloadInPlace operands a width payload
  | align =>
    simp only [applyInPlace, apply, hrole]
    refine Procedure.exec_ofExcept_bind fun exponent => ?_
    rw [Procedure.exec_bind, InPlace.exec_align]
    cases a.align exponent.toNat <;> rfl
  | declare symbol =>
    cases symbol with
    | externs =>
      simp only [applyInPlace, apply_externs hrole, hrole]
      refine Procedure.exec_ofExcept_bind fun size => ?_
      exact Procedure.exec_map (InPlace.exec_reserveExtern size a) ([·])
    | global | equate =>
      simp only [applyInPlace, apply, hrole]
      rfl
  | macroBegin | macroEnd | includeFile | ignored =>
    simp only [applyInPlace, apply, hrole]
    rfl

/-! ## What a directive changes -/

/-- What a directive that is carried out can change. -/
def Changes (d : Directive) : Allocator → Allocator → Prop :=
  match d.role with
  | .select s => Allocator.ChangesSelection s
  | .align | .emit _ _ => Allocator.ChangesActive
  | .declare .externs => Allocator.ChangesExternOffset
  | .declare _ | .macroBegin | .macroEnd | .includeFile | .ignored => fun a a' => a' = a

variable {d operands a} {a' : Allocator} {items : List Allocation}

theorem changesActive_of_emitPayload {width : Width} {payload : Payload}
    (h : d.emitPayload a width operands payload = .ok (items, a')) : a.ChangesActive a' := by
  cases payload with
  | numeric kind =>
    simp only [emitPayload] at h
    split at h
    · cases h
    · split at h
      · exact Allocator.changesActive_of_emit h
      · cases h
  | text terminated =>
    simp only [emitPayload] at h
    split at h
    · exact Allocator.changesActive_of_emit h
    · cases h
  | space =>
    obtain ⟨bytes, -, h⟩ := bind_eq_ok_iff.mp h
    obtain ⟨⟨x, _⟩, hreserve, he⟩ := bind_eq_ok_iff.mp h
    cases he
    exact Allocator.changesActive_of_reserve hreserve

theorem apply_changes (h : d.apply operands a = .ok (items, a')) : d.Changes a a' := by
  cases hrole : d.role with
  | select s =>
    simp only [apply, Changes, hrole] at h ⊢
    split at h
    · cases h
      exact a.changesSelection_select s
    · cases h
  | emit width payload =>
    simp only [apply, Changes, hrole] at h ⊢
    split at h
    · cases h
    · exact changesActive_of_emitPayload h
  | align =>
    simp only [apply, Changes, hrole] at h ⊢
    obtain ⟨exponent, -, h⟩ := bind_eq_ok_iff.mp h
    obtain ⟨⟨address, _⟩, halign, he⟩ := bind_eq_ok_iff.mp h
    cases he
    exact Allocator.changesActive_of_align halign
  | declare symbol =>
    cases symbol with
    | externs =>
      rw [apply_externs hrole] at h
      simp only [Changes, hrole]
      obtain ⟨size, -, h⟩ := bind_eq_ok_iff.mp h
      obtain ⟨⟨x, _⟩, hreserve, he⟩ := map_eq_ok_iff.mp h
      cases he
      exact Allocator.changesExternOffset_of_reserveExtern hreserve
    | global | equate =>
      simp only [apply, Changes, hrole] at h ⊢
      cases h
      rfl
  | macroBegin | macroEnd | includeFile | ignored =>
    simp only [apply, Changes, hrole] at h ⊢
    cases h
    rfl

/-- Carried out in place, an operation or a directive does what it does in one piece: a failure
leaves every component of the allocator as it was, and a success changes only what it may. -/
theorem in_place_confined (a : Allocator) :
    (∀ operation, exec (InPlace.perform operation) a = a.step operation ∧
      Allocator.Confined operation.Changes a (exec (InPlace.perform operation) a)) ∧
    ∀ (d : Directive) (operands : List Operand),
      exec (d.applyInPlace operands) a = a.after (d.apply operands a) ∧
        Allocator.Confined d.Changes a (exec (d.applyInPlace operands) a) := by
  refine ⟨fun operation => ⟨InPlace.exec_perform operation a, ?_⟩,
    fun d operands => ⟨?_, ?_⟩⟩
  · rw [InPlace.exec_perform]
    exact Allocator.confined_after fun _ _ => Allocator.perform_changes
  · rw [exec_applyInPlace, InPlace.after_eq_settle]
  · rw [exec_applyInPlace, ← InPlace.after_eq_settle]
    exact Allocator.confined_after fun _ _ => apply_changes

end Directive

end MipsMemory
