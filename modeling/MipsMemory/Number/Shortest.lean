import MipsMemory.Number.Binary64

/-!
The shortest decimal that reads back as a given double. On the grid of numbers with `k` digits
only the two neighbours of the value can be nearest, so each grid is tried with those two.
-/

namespace MipsMemory.Number

/-- A decimal point stands before the first digit, moved right by `point` places. -/
structure Decimal where
  digits : List Char
  point : Int
  deriving DecidableEq, Repr

/-- A positive number as a fraction, with the fractions halfway to the doubles next to it over the
same denominator. The halfway points belong to it if `closed`. -/
structure Interval where
  value : Nat
  low : Nat
  high : Nat
  den : Nat
  closed : Bool

/-- The interval that rounds to `mantissa * 2 ^ exponent`. Below a power of two the doubles lie
twice as dense. -/
def Interval.around (mantissa : Nat) (exponent : Int) : Interval :=
  let scale := 1 <<< exponent.toNat
  let below :=
    if mantissa = Binary64.leadingBit ∧ Binary64.minExponent < exponent then 1 else 2
  { value := 4 * mantissa * scale
    low := (4 * mantissa - below) * scale
    high := (4 * mantissa + 2) * scale
    den := 4 <<< (-exponent).toNat
    closed := mantissa % 2 = 0 }

/-- The number of decimal places before the point; negative for a fraction that starts with zeros.
No double is so small that the added places leave nothing of it. -/
def Interval.places (i : Interval) : Int :=
  (Nat.toDigits 10 (i.value * Nat.pow 10 330 / i.den)).length - 330

/-- The better neighbour of the value among the multiples of `10 ^ scale`, if one lies in the
interval. Of two equally near ones the greater is taken. -/
def Interval.onGrid? (i : Interval) (scale : Int) : Option Nat :=
  let up := Nat.pow 10 (-scale).toNat
  let unit := i.den * Nat.pow 10 scale.toNat
  let value := i.value * up
  let below := value / unit
  let inside (n : Nat) : Bool :=
    if i.closed then i.low * up ≤ n * unit && n * unit ≤ i.high * up
    else i.low * up < n * unit && n * unit < i.high * up
  match inside below, inside (below + 1) with
  | true, true =>
    some (if value - below * unit < (below + 1) * unit - value then below else below + 1)
  | true, false => some below
  | false, true => some (below + 1)
  | false, false => none

/-- The first hit among the grids for one digit, two digits, and so on; seventeen always suffice. -/
def Interval.shortest (i : Interval) : Decimal :=
  let places := i.places
  let grids := (List.range 17).map fun (k : Nat) => places - 1 - k
  match grids.findSome? fun scale => (i.onGrid? scale).map (·, scale) with
  | none => ⟨['0'], 1⟩
  | some (n, scale) =>
    let digits := Nat.toDigits 10 n
    ⟨(digits.reverse.dropWhile (· = '0')).reverse, digits.length + scale⟩

/-- The fewest digits that read back as `mantissa * 2 ^ exponent`. -/
def shortest (mantissa : Nat) (exponent : Int) : Decimal :=
  (Interval.around mantissa exponent).shortest

example : shortest 1 (-1074) = ⟨['5'], -323⟩ := by decide +kernel
example : shortest Binary64.leadingBit (-52) = ⟨['1'], 1⟩ := by decide +kernel

end MipsMemory.Number
