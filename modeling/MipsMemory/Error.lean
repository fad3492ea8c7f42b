import MipsMemory.Access

/-!
Everything that can go wrong, as causes, with the wording of each cause in one place.
-/

namespace MipsMemory

/-- What a directive finds wrong with its operands. -/
inductive OperandProblem where
  | segmentAddress
  | notOneInteger
  | exponentOutOfRange
  | noValues
  | wrongKind
  | notText
  | countOutOfRange
  | sizeOutOfRange
  | notLabelAndSize
  deriving DecidableEq, Repr

/-- What the user is told of the problem. -/
def OperandProblem.message : OperandProblem → String
  | .segmentAddress => "segment address operand is not supported"
  | .notOneInteger => "expected one integer"
  | .exponentOutOfRange => "negative exponent"
  | .noValues => "expected at least one value"
  | .wrongKind => "operand kind does not match directive"
  | .notText => "expected string"
  | .countOutOfRange => "bad byte count"
  | .sizeOutOfRange => "bad size"
  | .notLabelAndSize => "expected label and byte length"

/-- Why a call on the allocator, the registers, the memory or a file can fail. -/
inductive Error where
  | directiveNotFound (token : String)
  | allocationOverflow (segment : Segment) (requested available : Nat)
  | invalidAlignmentExponent (exponent : Nat)
  | invalidWidth (bytes : Nat)
  | invalidRegisterNumber (number : Nat)
  | registerSlotMismatch (slot number : Nat)
  | unknownRegisterName (name : String)
  | dataDirectiveInTextSegment (directive : String)
  | badOperand (directive : String) (problem : OperandProblem)
  | address (refused : AddressError)
  | configRead (path : String)
  | addressSpaceExhausted (segment : Segment)
  | configInvalid (defect : MemoryMap.Defect)
  | configParse
  deriving DecidableEq, Repr

namespace Error

/-- A piece of a message that stands between backquotes. -/
def quoted (text : String) : String := "`" ++ text ++ "`"

/-- What the user is told. -/
def message : Error → String
  | directiveNotFound token => "Unrecognized directive: " ++ quoted token
  | allocationOverflow segment requested available =>
    segment.name ++ " segment overflow: " ++ requested.repr ++ " bytes requested, " ++
      available.repr ++ " available"
  | invalidAlignmentExponent exponent =>
    "Alignment exponent must be 0, 1, 2 or 3: " ++ quoted exponent.repr
  | invalidWidth bytes => "Data width must be 1, 2, 4 or 8 bytes: " ++ quoted bytes.repr
  | invalidRegisterNumber number => "Invalid register number: " ++ quoted number.repr
  | registerSlotMismatch slot number =>
    "Register in slot " ++ slot.repr ++ " is numbered " ++ number.repr
  | unknownRegisterName name => "Unknown register name: " ++ quoted name
  | dataDirectiveInTextSegment directive =>
    quoted directive ++ " directive cannot appear in text segment"
  | badOperand directive problem =>
    "Bad operand for " ++ quoted directive ++ ": " ++ problem.message
  | address refused => refused.message
  | configRead path => "Failed to read config: " ++ path
  | addressSpaceExhausted segment => segment.name ++ " segment has no addresses left"
  | configInvalid defect => "Invalid memory configuration: " ++ defect.message
  | configParse => "Failed to parse config"

end Error

/-- The width of a byte count, or an error that names the count. -/
def Width.ofBytes (bytes : Nat) : Except Error Width :=
  match ofBytes? bytes with
  | some width => .ok width
  | none => .error (.invalidWidth bytes)

/-- The width of an exponent of two, or an error that names the exponent. -/
def Width.ofExponent (exponent : Nat) : Except Error Width :=
  match ofExponent? exponent with
  | some width => .ok width
  | none => .error (.invalidAlignmentExponent exponent)

/-- Passes a map without defects. -/
def MemoryMap.check (m : MemoryMap) : Except Error Unit :=
  match m.defect? with
  | none => .ok ()
  | some defect => .error (.configInvalid defect)

end MipsMemory
