import MipsMemory.Error
import MipsMemory.Text.LowerCase

/-!
The assembler's directives. Looking a directive up ignores case, listing by the start of a token
does not.
-/

namespace MipsMemory

/-- The numbers a data directive stores. -/
inductive NumericKind where
  | integer
  | float
  deriving DecidableEq, Repr

/-- What a symbol declaration binds. -/
inductive SymbolKind where
  /-- Label visible to other units. -/
  | global
  /-- Label plus byte length, reserved in the extern area. -/
  | externs
  /-- Textual substitution. -/
  | equate
  deriving DecidableEq, Repr

/-- What a data directive stores. -/
inductive Payload where
  | numeric (kind : NumericKind)
  | text (terminated : Bool)
  | space
  deriving DecidableEq, Repr

/-- What a directive is for. -/
inductive Role where
  | select (segment : Segment)
  | emit (width : Width) (payload : Payload)
  | align
  | declare (symbol : SymbolKind)
  | macroBegin
  | macroEnd
  | includeFile
  | ignored
  deriving DecidableEq, Repr

/-- A directive: what is written for it, what it is for, and what the help listing says of it. -/
structure Directive where
  token : String
  role : Role
  description : String
  deriving DecidableEq, Repr

namespace Directive

/-- Every directive, in the order of the help listing. -/
def catalogue : List Directive := [
  ⟨".data", .select .data,
    "Subsequent items stored in Data segment at next available address"⟩,
  ⟨".text", .select .text,
    "Subsequent items (instructions) stored in Text segment at next available address"⟩,
  ⟨".word", .emit .word (.numeric .integer),
    "Store the listed value(s) as 32 bit words on word boundary"⟩,
  ⟨".ascii", .emit .byte (.text false),
    "Store the string in the Data segment but do not add null terminator"⟩,
  ⟨".asciiz", .emit .byte (.text true),
    "Store the string in the Data segment and add null terminator"⟩,
  ⟨".byte", .emit .byte (.numeric .integer),
    "Store the listed value(s) as 8 bit bytes"⟩,
  ⟨".align", .align,
    "Align next data item on specified byte boundary (0=byte, 1=half, 2=word, 3=double)"⟩,
  ⟨".half", .emit .half (.numeric .integer),
    "Store the listed value(s) as 16 bit halfwords on halfword boundary"⟩,
  ⟨".space", .emit .byte .space,
    "Reserve the next specified number of bytes in Data segment"⟩,
  ⟨".double", .emit .double (.numeric .float),
    "Store the listed value(s) as double precision floating point"⟩,
  ⟨".float", .emit .word (.numeric .float),
    "Store the listed value(s) as single precision floating point"⟩,
  ⟨".extern", .declare .externs,
    "Declare the listed label and byte length to be a global data field"⟩,
  ⟨".kdata", .select .kernelData,
    "Subsequent items stored in Kernel Data segment at next available address"⟩,
  ⟨".ktext", .select .kernelText,
    "Subsequent items (instructions) stored in Kernel Text segment at next available address"⟩,
  ⟨".globl", .declare .global,
    "Declare the listed label(s) as global to enable referencing from other files"⟩,
  ⟨".set", .ignored,
    "Set assembler variables.  Currently ignored but included for SPIM compatability"⟩,
  ⟨".eqv", .declare .equate,
    "Substitute second operand for first. " ++
      "First operand is symbol, second operand is expression (like #define)"⟩,
  ⟨".macro", .macroBegin,
    "Begin macro definition.  See .end_macro"⟩,
  ⟨".end_macro", .macroEnd,
    "End macro definition.  See .macro"⟩,
  ⟨".include", .includeFile,
    "Insert the contents of the specified file.  Put filename in quotes."⟩]

/-- Tokens are in lower case, so a text is looked up by its lower case. -/
def lookup (token : String) : Except Error Directive :=
  match catalogue.find? (·.token = Text.lowercase token) with
  | some d => .ok d
  | none => .error (.directiveNotFound token)

/-- The directives whose token begins with the given text, case and all, in catalogue order. -/
def startingWith (start : String) : List Directive :=
  catalogue.filter fun d => start.toList.isPrefixOf d.token.toList

/-- The listing for a text typed by a user, whose case does not matter. -/
def suggestions (typed : String) : List Directive :=
  startingWith (Text.lowercase typed)

/-- The segment it selects, if it selects one. -/
def segment? (d : Directive) : Option Segment :=
  match d.role with
  | .select segment => some segment
  | _ => none

/-- The width and the payload of a data directive. -/
def emission? (d : Directive) : Option (Width × Payload) :=
  match d.role with
  | .emit width payload => some (width, payload)
  | _ => none

/-- What it declares, if it declares symbols. -/
def symbol? (d : Directive) : Option SymbolKind :=
  match d.role with
  | .declare symbol => some symbol
  | _ => none

/-- The width of the items it places. -/
def elementWidth? (d : Directive) : Option Width :=
  d.emission?.map Prod.fst

/-- The kind of numbers it stores, if it stores numbers. -/
def numericKind? (d : Directive) : Option NumericKind :=
  match d.role with
  | .emit _ (.numeric kind) => some kind
  | _ => none

end Directive

end MipsMemory
