import MipsMemory.Number.Shortest
import MipsMemory.Text.Quoted

/-!
One tokenised source line, and its text.
-/

namespace MipsMemory

/-- What can stand after a directive. -/
inductive Operand where
  | int (value : Int)
  | float (value : Binary64)
  | text (value : String)
  deriving DecidableEq, Repr

/-- A source line taken apart: label, directive and operands. -/
structure Statement where
  label : Option String
  directive : String
  operands : List Operand
  deriving DecidableEq, Repr

namespace Operand

/-- A run of zeros. -/
def zeros (n : Nat) : List Char := List.replicate n '0'

/-- Positional with at least one decimal for magnitudes from 1e-4 up to, not including, 1e16;
otherwise one digit before the point and a bare exponent. -/
def decimalText (d : Number.Decimal) : List Char :=
  if 16 < d.point ∨ d.point < -3 then
    let mantissa := match d.digits with
      | first :: second :: rest => first :: '.' :: second :: rest
      | digits => digits
    mantissa ++ 'e' :: (toString (d.point - 1)).toList
  else if d.point ≤ 0 then "0.".toList ++ zeros (-d.point).toNat ++ d.digits
  else
    let whole := d.point.toNat
    let fraction := d.digits.drop whole
    d.digits.take whole ++ zeros (whole - d.digits.length) ++ '.' ::
      (if fraction.isEmpty then ['0'] else fraction)

/-- A double with the fewest digits that read back. -/
def floatText (x : Binary64) : String :=
  let sign (negative : Bool) := if negative then "-" else ""
  match x.value with
  | .nan => "NaN"
  | .infinite negative => sign negative ++ "inf"
  | .finite negative 0 _ => sign negative ++ "0.0"
  | .finite negative mantissa exponent =>
    sign negative ++ String.ofList (decimalText (Number.shortest mantissa exponent))

/-- An operand as it is written in a source line. -/
def toText : Operand → String
  | int n => toString n
  | float x => floatText x
  | text s => Text.quoted s

end Operand

/-- The line as source text: label, directive, operands between commas. -/
def Statement.toText (s : Statement) : String :=
  let label := match s.label with
    | some name => name ++ ": "
    | none => ""
  let operands := match s.operands with
    | [] => ""
    | operands => " " ++ ", ".intercalate (operands.map Operand.toText)
  label ++ s.directive ++ operands

end MipsMemory
