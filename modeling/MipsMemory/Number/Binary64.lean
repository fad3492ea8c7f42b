import MipsMemory.Number.Rounding

/-!
Double-precision numbers as their 64 bits: what the bits stand for, and the nearest double to a
fraction or a decimal, ties going to the even one.
-/

namespace MipsMemory

/-- A double-precision number; two numbers are the same if their bits are. -/
structure Binary64 where
  bits : UInt64
  deriving DecidableEq, Repr

namespace Binary64

/-- What the bits stand for. A finite value is `mantissa * 2 ^ exponent`. -/
inductive Value where
  | nan
  | infinite (negative : Bool)
  | finite (negative : Bool) (mantissa : Nat) (exponent : Int)
  deriving DecidableEq, Repr

/-- Number of stored mantissa bits. -/
def mantissaBits : Nat := 52

/-- What the leading mantissa bit, which is not stored, counts for. -/
def leadingBit : Nat := 1 <<< mantissaBits

/-- What the bit of the sign counts for. -/
def signBit : Nat := 1 <<< 63

/-- The exponent of the last mantissa bit of the smallest numbers. -/
def minExponent : Int := -1074

/-- The bits of positive infinity, as a number. -/
def infinityBits : Nat := 2047 * leadingBit

/-- The sign bit is set. -/
def isNegative (x : Binary64) : Bool := signBit ≤ x.bits.toNat

/-- Takes the bits apart: sign, exponent and fraction, with special cases for the two extreme
exponents. -/
def value (x : Binary64) : Value :=
  let field := x.bits.toNat / leadingBit % 2048
  let fraction := x.bits.toNat % leadingBit
  if field = 2047 then if fraction = 0 then .infinite x.isNegative else .nan
  else if field = 0 then .finite x.isNegative fraction minExponent
  else .finite x.isNegative (leadingBit + fraction) (minExponent + (field - 1))

/-- A sign and the bits below it. -/
def ofSign (negative : Bool) (low : Nat) : Binary64 :=
  ⟨UInt64.ofNat (if negative then signBit + low else low)⟩

/-- The quiet number that is none. -/
def nan : Binary64 := ofSign false (infinityBits + leadingBit / 2)

/-- The infinity of a sign. -/
def infinity (negative : Bool) : Binary64 := ofSign negative infinityBits

/-- Neither infinite nor no number at all. -/
def IsFinite (x : Binary64) : Prop := x.bits.toNat / leadingBit % 2048 ≠ 2047

instance (x : Binary64) : Decidable x.IsFinite := inferInstanceAs (Decidable (_ ≠ _))

/-- The largest exponent of two that a positive fraction reaches. -/
def floorLog2 (num den : Nat) : Int :=
  let guess : Int := num.log2 - den.log2
  if den <<< guess.toNat ≤ num <<< (-guess).toNat then guess else guess - 1

/-- The double nearest to a fraction, the even one of two equally near; infinity past the largest
double. -/
def ofRatio (negative : Bool) (num den : Nat) : Binary64 :=
  if num = 0 then ofSign negative 0
  else
    let exponent := max (floorLog2 num den - mantissaBits) minExponent
    let mantissa := Number.roundDiv (num <<< (-exponent).toNat) (den <<< exponent.toNat)
    let low := (exponent - minExponent).toNat * leadingBit + mantissa
    ofSign negative (min low infinityBits)

/-- The double nearest to a whole number. -/
def ofNat (n : Nat) : Binary64 := ofRatio false n 1

/-- The double nearest to `digits * 10 ^ exponent`. Decimals beyond the range of all doubles are
settled by their magnitude alone. -/
def ofDecimal (negative : Bool) (digits : Nat) (exponent : Int) : Binary64 :=
  let places := (Nat.toDigits 10 digits).length + exponent
  if digits = 0 ∨ places < -330 then ofSign negative 0
  else if 310 < places then infinity negative
  else ofRatio negative (digits * Nat.pow 10 exponent.toNat) (Nat.pow 10 (-exponent).toNat)

example : (ofNat (1 <<< 63)).bits = 0x43e0000000000000 := by decide +kernel
example : (ofNat (UInt64.size - 1)).bits = 0x43f0000000000000 := by decide +kernel
example : (ofDecimal true 15 (-1)).bits = 0xbff8000000000000 := by decide +kernel
example : (ofDecimal false 49 (-325)).bits = 1 := by decide +kernel
example : (ofDecimal false 22250738585072014 (-324)).bits = 0x0010000000000000 := by decide +kernel

end Binary64

end MipsMemory
