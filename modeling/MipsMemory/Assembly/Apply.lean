import MipsMemory.Allocator
import MipsMemory.Directive
import MipsMemory.Statement

/-!
What a directive with its operands asks of an allocator. Operands are checked before anything is
asked. Main statement: symbols, macros, included files and settings ask nothing.
-/

namespace MipsMemory

/-- Integers are stored by any numeric directive, floats only by one for floats. -/
def NumericKind.accepts : NumericKind → Operand → Bool
  | _, .int _ => true
  | .float, .float _ => true
  | _, _ => false

namespace Directive

/-- The integer as an unsigned 32-bit number. -/
def unsigned32? (n : Int) : Option UInt32 :=
  if 0 ≤ n ∧ n.toNat < UInt32.size then some (UInt32.ofNat n.toNat) else none

/-- Turns an operand of the directive down. -/
def bad {α : Type} (d : Directive) (problem : OperandProblem) : Except Error α :=
  .error (.badOperand d.token problem)

/-- The only operand, an integer that must fit 32 bits without a sign. -/
def singleNumber (d : Directive) (otherwise : OperandProblem) : List Operand → Except Error UInt32
  | [.int n] =>
    match unsigned32? n with
    | some n => .ok n
    | none => d.bad otherwise
  | _ => d.bad .notOneInteger

/-- The bytes that strings take, each with its terminator if there is one; none if an operand is not
a string. -/
def textLength? (terminated : Bool) : List Operand → Option Nat
  | [] => some 0
  | .text s :: rest =>
    (textLength? terminated rest).map (s.utf8ByteSize + (if terminated then 1 else 0) + ·)
  | _ :: _ => none

/-- What a data directive places: an item for each number or byte of text, or one piece of bytes. -/
def emitPayload (d : Directive) (a : Allocator) (width : Width) (operands : List Operand) :
    Payload → Except Error (List Allocation × Allocator)
  | .numeric kind =>
    if operands.isEmpty then d.bad .noValues
    else if operands.all kind.accepts then a.emit width operands.length
    else d.bad .wrongKind
  | .text terminated =>
    match textLength? terminated operands with
    | some length => a.emit width length
    | none => d.bad .notText
  | .space => do
    let bytes ← d.singleNumber .countOutOfRange operands
    let (item, a) ← a.reserve bytes
    return ([item], a)

/-- Carries a directive out; the answer lists what it reserved. -/
def apply (d : Directive) (operands : List Operand) (a : Allocator) :
    Except Error (List Allocation × Allocator) :=
  match d.role with
  | .select segment =>
    if operands.isEmpty then .ok ([], a.select segment) else d.bad .segmentAddress
  | .align => do
    let exponent ← d.singleNumber .exponentOutOfRange operands
    let (_, a) ← a.align exponent.toNat
    return ([], a)
  | .emit width payload =>
    if a.current.isText then .error (.dataDirectiveInTextSegment d.token)
    else d.emitPayload a width operands payload
  | .declare .externs =>
    match operands with
    | [.text _, .int size] =>
      match unsigned32? size with
      | some size => (a.reserveExtern size).map fun (item, a) => ([item], a)
      | none => d.bad .sizeOutOfRange
    | _ => d.bad .notLabelAndSize
  | .declare _ | .macroBegin | .macroEnd | .includeFile | .ignored => .ok ([], a)

/-- A directive that neither selects, aligns, emits nor reserves externs. -/
def IsInert (d : Directive) : Prop :=
  d.role ∈ [.declare .global, .declare .equate, .macroBegin, .macroEnd, .includeFile, .ignored]

theorem apply_of_isInert {d : Directive} (h : d.IsInert) (operands : List Operand)
    (a : Allocator) : d.apply operands a = .ok ([], a) := by
  simp only [IsInert, List.mem_cons, List.not_mem_nil, or_false] at h
  rcases h with h | h | h | h | h | h <;> simp [apply, h]

end Directive

end MipsMemory
