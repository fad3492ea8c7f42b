/-!
Rounding a quotient of natural numbers to the nearest natural number. Main statement: the rounded
quotient is within half a unit of the exact one.
-/

namespace MipsMemory.Number

/-- The nearest natural number to `num / den`; of two equally near ones the even one. -/
def roundDiv (num den : Nat) : Nat :=
  let q := num / den
  let r := num % den
  if 2 * r < den ∨ (2 * r = den ∧ q % 2 = 0) then q else q + 1

theorem two_mul_roundDiv_bounds (num : Nat) {den : Nat} (h : 0 < den) :
    2 * (roundDiv num den * den) ≤ 2 * num + den ∧
      2 * num ≤ 2 * (roundDiv num den * den) + den := by
  have hd := Nat.div_add_mod num den
  have hm := Nat.mod_lt num h
  rw [Nat.mul_comm] at hd
  unfold roundDiv
  simp only
  split
  · omega
  · rw [Nat.add_mul]
    omega

end MipsMemory.Number
