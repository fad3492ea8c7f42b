import Mathlib.Algebra.BigOperators.Ring.Finset
import MipsMemory.Proofs.Allocator.Independence
import MipsMemory.Proofs.Assembly.Operations

/-!
What a directive asks for. Main statement: to find the operation it asks for, or the reason to ask
for none, a directive looks at its operands and at which segment is selected, and at nothing else of
the allocator.
-/

namespace MipsMemory

open Allocator (Operation)

namespace Allocator

/-- Carries out what is asked for, if anything is. -/
def fulfil (a : Allocator) : Option Operation → Except Error (List Allocation × Allocator)
  | none => .ok ([], a)
  | some operation => (a.perform operation).map fun (outcome, a) => (answered (.ok outcome), a)

variable (a : Allocator)

theorem fulfil_align (exponent : Nat) :
    a.fulfil (some (.align exponent)) = (a.align exponent).map fun (_, a) => ([], a) := by
  simp only [fulfil, perform]
  cases a.align exponent <;> rfl

theorem fulfil_emit (width : Width) (count : Nat) :
    a.fulfil (some (.emit width count)) = a.emit width count := by
  simp only [fulfil, perform]
  cases a.emit width count <;> rfl

theorem fulfil_reserve (bytes : UInt32) :
    a.fulfil (some (.reserve bytes)) = (a.reserve bytes).map fun (x, a) => ([x], a) := by
  simp only [fulfil, perform]
  cases a.reserve bytes <;> rfl

theorem fulfil_reserveExtern (bytes : UInt32) :
    a.fulfil (some (.reserveExtern bytes)) =
      (a.reserveExtern bytes).map fun (x, a) => ([x], a) := by
  simp only [fulfil, perform]
  cases a.reserveExtern bytes <;> rfl

/-- What is carried out in the area of an operation is carried out on its cursor alone. -/
theorem fulfil_some_eq_ok_iff {operation : Operation} {items : List Allocation} {a' : Allocator}
    {area : Area} (harea : operation.target a.current = area) :
    a.fulfil (some operation) = .ok (items, a') ↔
      ∃ outcome c, (a.areaCursor area).perform area.shown operation = .ok (outcome, c) ∧
        items = answered (.ok outcome) ∧
        a' = { a.setAreaCursor area c with current := operation.selected a.current } := by
  subst harea
  simp only [fulfil, perform_eq, map_eq_ok_iff]
  constructor
  · rintro ⟨_, ⟨⟨outcome, c⟩, hperform, rfl⟩, he⟩
    cases he
    exact ⟨outcome, c, hperform, rfl, rfl⟩
  · rintro ⟨outcome, c, hperform, rfl, rfl⟩
    exact ⟨_, ⟨⟨outcome, c⟩, hperform, rfl⟩, rfl⟩

end Allocator

namespace Directive

/-- The operation that a payload asks for. -/
def payloadRequest (d : Directive) (width : Width) (operands : List Operand) :
    Payload → Except Error Operation
  | .numeric kind =>
    if operands.isEmpty then d.bad .noValues
    else if operands.all kind.accepts then .ok (.emit width operands.length)
    else d.bad .wrongKind
  | .text terminated =>
    match textLength? terminated operands with
    | some length => .ok (.emit width length)
    | none => d.bad .notText
  | .space => (d.singleNumber .countOutOfRange operands).map .reserve

/-- The operation that a directive asks for while a segment is selected, if it asks for one. -/
def request (d : Directive) (operands : List Operand) (current : Segment) :
    Except Error (Option Operation) :=
  match d.role with
  | .select segment =>
    if operands.isEmpty then .ok (some (.select segment)) else d.bad .segmentAddress
  | .align => (d.singleNumber .exponentOutOfRange operands).map fun e => some (.align e.toNat)
  | .emit width payload =>
    if current.isText then .error (.dataDirectiveInTextSegment d.token)
    else (d.payloadRequest width operands payload).map some
  | .declare .externs => (d.externSize operands).map fun size => some (.reserveExtern size)
  | .declare _ | .macroBegin | .macroEnd | .includeFile | .ignored => .ok none

variable (d : Directive) (operands : List Operand) (a : Allocator)

theorem emitPayload_eq (width : Width) (payload : Payload) :
    d.emitPayload a width operands payload =
      (d.payloadRequest width operands payload).map some >>= a.fulfil := by
  cases payload with
  | numeric kind =>
    simp only [emitPayload, payloadRequest]
    split
    · rfl
    · split
      · exact (a.fulfil_emit width _).symm
      · rfl
  | text terminated =>
    simp only [emitPayload, payloadRequest]
    cases textLength? terminated operands with
    | none => rfl
    | some length => exact (a.fulfil_emit width length).symm
  | space =>
    simp only [emitPayload, payloadRequest]
    cases d.singleNumber .countOutOfRange operands with
    | error e => rfl
    | ok bytes => exact (a.fulfil_reserve bytes).symm

/-- A directive is carried out by finding its request and then carrying that out. -/
theorem apply_eq : d.apply operands a = d.request operands a.current >>= a.fulfil := by
  cases hrole : d.role with
  | select s =>
    simp only [apply, request, hrole]
    split <;> rfl
  | emit width payload =>
    simp only [apply, request, hrole]
    split
    · rfl
    · exact d.emitPayload_eq operands a width payload
  | align =>
    simp only [apply, request, hrole]
    cases d.singleNumber .exponentOutOfRange operands with
    | error e => rfl
    | ok exponent => exact (a.fulfil_align exponent.toNat).symm
  | declare symbol =>
    cases symbol with
    | externs =>
      simp only [apply_externs hrole, request, hrole]
      cases d.externSize operands with
      | error e => rfl
      | ok size => exact (a.fulfil_reserveExtern size).symm
    | global | equate =>
      simp only [apply, request, hrole]
      rfl
  | macroBegin | macroEnd | includeFile | ignored =>
    simp only [apply, request, hrole]
    rfl

/-! ## What can be asked for -/

theorem eq_toNat_of_unsigned32? {n : Int} {k : UInt32} (h : unsigned32? n = some k) :
    n = k.toNat := by
  unfold unsigned32? at h
  split at h
  · rename_i hn
    cases h
    rw [UInt32.toNat_ofNat_of_lt' hn.2, Int.toNat_of_nonneg hn.1]
  · cases h

theorem unsigned32?_toNat (k : UInt32) : unsigned32? k.toNat = some k := by
  simp [unsigned32?, k.toNat_lt]

theorem eq_of_singleNumber {d : Directive} {problem : OperandProblem} {operands : List Operand}
    {k : UInt32} (h : d.singleNumber problem operands = .ok k) : operands = [.int k.toNat] := by
  unfold singleNumber at h
  split at h
  · split at h <;> cases h
    rename_i hn
    rw [eq_toNat_of_unsigned32? hn]
  · cases h

theorem eq_of_externSize {d : Directive} {operands : List Operand} {k : UInt32}
    (h : d.externSize operands = .ok k) : ∃ name, operands = [.text name, .int k.toNat] := by
  unfold externSize at h
  split at h
  · split at h <;> cases h
    rename_i name _ _ hn
    rw [eq_toNat_of_unsigned32? hn]
    exact ⟨name, rfl⟩
  · cases h

/-- The bytes of the strings among operands. -/
def textBytes (operands : List Operand) : Nat :=
  (operands.map fun | .text s => s.utf8ByteSize | _ => 0).sum

theorem eq_of_textLength? {terminated : Bool} {operands : List Operand} {n : Nat}
    (h : textLength? terminated operands = some n) :
    n = textBytes operands + if terminated then operands.length else 0 := by
  induction operands generalizing n with
  | nil =>
    cases h
    cases terminated <;> rfl
  | cons operand rest ih =>
    cases operand with
    | text s =>
      obtain ⟨k, hk, rfl⟩ := Option.map_eq_some_iff.mp h
      rw [ih hk]
      cases terminated with
      | false => simp [textBytes]
      | true =>
        simp [textBytes]
        omega
    | int | float => cases h

/-- The requests of a directive, each with the operands that lead to it. -/
inductive Asks (d : Directive) : List Operand → Option Operation → Prop
  | select (s : Segment) (role : d.role = .select s) : Asks d [] (some (.select s))
  | align (role : d.role = .align) (e : UInt32) : Asks d [.int e.toNat] (some (.align e.toNat))
  | numeric (width : Width) (kind : NumericKind) (role : d.role = .emit width (.numeric kind))
      (operands : List Operand) : Asks d operands (some (.emit width operands.length))
  | text (width : Width) (terminated : Bool) (role : d.role = .emit width (.text terminated))
      (operands : List Operand) :
      Asks d operands
        (some (.emit width (textBytes operands + if terminated then operands.length else 0)))
  | space (width : Width) (role : d.role = .emit width .space) (bytes : UInt32) :
      Asks d [.int bytes.toNat] (some (.reserve bytes))
  | externs (role : d.role = .declare .externs) (name : String) (bytes : UInt32) :
      Asks d [.text name, .int bytes.toNat] (some (.reserveExtern bytes))
  | inert (h : d.IsInert) (operands : List Operand) : Asks d operands none

theorem asks_of_request {d : Directive} {operands : List Operand} {current : Segment}
    {r : Option Operation} (h : d.request operands current = .ok r) : d.Asks operands r := by
  cases hrole : d.role with
  | select s =>
    simp only [request, hrole] at h
    split at h <;> cases h
    rename_i hempty
    rw [List.isEmpty_iff.mp hempty]
    exact .select s hrole
  | align =>
    simp only [request, hrole] at h
    obtain ⟨e, he, rfl⟩ := map_eq_ok_iff.mp h
    rw [eq_of_singleNumber he]
    exact .align hrole e
  | emit width payload =>
    simp only [request, hrole] at h
    split at h
    · cases h
    · obtain ⟨operation, hpayload, rfl⟩ := map_eq_ok_iff.mp h
      cases payload with
      | numeric kind =>
        simp only [payloadRequest] at hpayload
        split at hpayload
        · cases hpayload
        · split at hpayload <;> cases hpayload
          exact .numeric width kind hrole operands
      | text terminated =>
        simp only [payloadRequest] at hpayload
        split at hpayload <;> cases hpayload
        rename_i hlength
        rw [eq_of_textLength? hlength]
        exact .text width terminated hrole operands
      | space =>
        obtain ⟨bytes, hbytes, rfl⟩ := map_eq_ok_iff.mp hpayload
        rw [eq_of_singleNumber hbytes]
        exact .space width hrole bytes
  | declare symbol =>
    cases symbol with
    | externs =>
      simp only [request, hrole] at h
      obtain ⟨size, hsize, rfl⟩ := map_eq_ok_iff.mp h
      obtain ⟨name, rfl⟩ := eq_of_externSize hsize
      exact .externs hrole name size
    | global | equate =>
      simp only [request, hrole] at h
      cases h
      exact .inert (by simp [IsInert, hrole]) operands
  | macroBegin | macroEnd | includeFile | ignored =>
    simp only [request, hrole] at h
    cases h
    exact .inert (by simp [IsInert, hrole]) operands

/-- Only an extern declaration works outside the segment that is selected after it. -/
theorem Asks.target_eq {d : Directive} {operands : List Operand} {operation : Operation}
    (h : d.Asks operands (some operation)) (current : Segment) :
    operation.target current =
      if d.role = .declare .externs then .externs else .segment (operation.selected current) := by
  cases h with
  | select s role => simp [role, Operation.target, Operation.selected]
  | align role e => simp [role, Operation.target, Operation.selected]
  | numeric width kind role => simp [role, Operation.target, Operation.selected]
  | text width terminated role => simp [role, Operation.target, Operation.selected]
  | space width role => simp [role, Operation.target, Operation.selected]
  | externs role => simp [role, Operation.target]

/-! ## Requests that are made -/

section

variable {d : Directive} {current : Segment} {bytes : UInt32}

theorem request_select {s : Segment} (h : d.role = .select s) :
    d.request [] current = .ok (some (.select s)) := by
  simp [request, h]

theorem request_space {width : Width} (h : d.role = .emit width .space)
    (hdata : current.isText = false) :
    d.request [.int bytes.toNat] current = .ok (some (.reserve bytes)) := by
  simp [request, h, hdata, payloadRequest, singleNumber, unsigned32?_toNat, Except.map]

theorem request_externs (h : d.role = .declare .externs) (name : String) :
    d.request [.text name, .int bytes.toNat] current = .ok (some (.reserveExtern bytes)) := by
  simp [request, h, externSize, unsigned32?_toNat, Except.map]

theorem isText_of_request {operands : List Operand} {r : Option Operation} {width : Width}
    {payload : Payload} (h : d.request operands current = .ok r)
    (hrole : d.role = .emit width payload) : current.isText = false := by
  simp only [request, hrole] at h
  split at h
  · cases h
  · exact eq_false_of_ne_true ‹_›

/-- In a text segment a directive can ask for nothing but to select and to align. -/
theorem select_or_align_of_isText {operands : List Operand} {operation : Operation}
    (h : d.request operands current = .ok (some operation))
    (htext : (operation.target current).shown.isText = true) :
    (∃ s, operation = .select s) ∨ ∃ exponent, operation = .align exponent := by
  cases asks_of_request h with
  | select s => exact .inl ⟨s, rfl⟩
  | align role e => exact .inr ⟨e.toNat, rfl⟩
  | numeric width kind role | text width terminated role | space width role =>
    exact absurd (isText_of_request h role) (Bool.not_eq_false _ ▸ htext)
  | externs => cases htext

end

end Directive

end MipsMemory
