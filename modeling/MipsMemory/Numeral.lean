/-!
Numbers as digit strings: fixed-width hexadecimal, unsigned numerals in a base with a bound, and the
two spellings of an address. Main statements: hexadecimal text has the requested number of
digits, a digit string's value grows by one digit at the right end, and looking for what is wrong
with a numeral finds the same numerals right.
-/

namespace MipsMemory.Numeral

/-- The value of a digit in either case, if it is below the base. -/
def digit? (base : Nat) (c : Char) : Option Nat :=
  let value :=
    if '0' ≤ c ∧ c ≤ '9' then c.toNat - '0'.toNat
    else if 'a' ≤ c ∧ c ≤ 'z' then c.toNat - 'a'.toNat + 10
    else if 'A' ≤ c ∧ c ≤ 'Z' then c.toNat - 'A'.toNat + 10
    else base
  if value < base then some value else none

/-- Reads further digits onto a number already read. -/
def digitsOnto (base : Nat) : Nat → List Char → Option Nat
  | n, [] => some n
  | n, c :: cs => (digit? base c).bind fun d => digitsOnto base (n * base + d) cs

/-- A nonempty digit string; leading zeros count for nothing. -/
def digits? (base : Nat) : List Char → Option Nat
  | [] => none
  | cs => digitsOnto base 0 cs

/-- An unsigned numeral below a bound: digits after at most one plus sign. -/
def unsigned? (base bound : Nat) (cs : List Char) : Option Nat :=
  let digits := match cs with
    | '+' :: r => r
    | cs => cs
  (digits? base digits).filter (· < bound)

theorem digitsOnto_append (base n : Nat) (xs ys : List Char) :
    digitsOnto base n (xs ++ ys) = (digitsOnto base n xs).bind (digitsOnto base · ys) := by
  induction xs generalizing n with
  | nil => rfl
  | cons c xs ih => cases h : digit? base c <;> simp [digitsOnto, h, ih]

theorem unsigned?_lt {base bound n : Nat} {cs : List Char} (h : unsigned? base bound cs = some n) :
    n < bound := by
  have := (Option.filter_eq_some_iff.mp h).2
  simpa using this

/-- What is wrong with a text that should be a numeral below a bound. -/
inductive Failure where
  | empty
  | invalidDigit
  | tooLarge
  deriving DecidableEq, Repr

/-- What the user is told of a numeral. -/
def Failure.message : Failure → String
  | empty => "cannot parse integer from empty string"
  | invalidDigit => "invalid digit found in string"
  | tooLarge => "number too large to fit in target type"

/-- Reads further digits onto a number, up to the first that is none or leads beyond the bound. -/
def boundedOnto (base bound : Nat) : Nat → List Char → Except Failure Nat
  | n, [] => .ok n
  | n, c :: cs =>
    match digit? base c with
    | none => .error .invalidDigit
    | some d =>
      if n * base + d < bound then boundedOnto base bound (n * base + d) cs else .error .tooLarge

/-- An unsigned numeral below a bound, or the first thing wrong with it. A sign by itself is no
digit. -/
def bounded (base bound : Nat) : List Char → Except Failure Nat
  | [] => .error .empty
  | ['+'] => .error .invalidDigit
  | '+' :: cs => boundedOnto base bound 0 cs
  | cs => boundedOnto base bound 0 cs

theorem le_of_digitsOnto {base n m : Nat} {cs : List Char} (hb : 0 < base)
    (h : digitsOnto base n cs = some m) : n ≤ m := by
  induction cs generalizing n with
  | nil => simp_all [digitsOnto]
  | cons c cs ih =>
    obtain ⟨d, -, hd⟩ := Option.bind_eq_some_iff.mp h
    have := Nat.le_mul_of_pos_right n hb
    have := ih hd
    omega

theorem toOption_boundedOnto {base bound n : Nat} (hb : 0 < base) (hn : n < bound)
    (cs : List Char) :
    (boundedOnto base bound n cs).toOption = (digitsOnto base n cs).filter (· < bound) := by
  induction cs generalizing n with
  | nil => simp [boundedOnto, digitsOnto, Option.filter, hn, Except.toOption]
  | cons c cs ih =>
    cases hc : digit? base c with
    | none => simp [boundedOnto, digitsOnto, hc, Except.toOption]
    | some d =>
      by_cases hd : n * base + d < bound
      · simp [boundedOnto, digitsOnto, hc, hd, ih hd]
      · have hnone : (digitsOnto base (n * base + d) cs).filter (· < bound) = none := by
          rw [Option.filter_eq_none_iff]
          intro m hm
          have := le_of_digitsOnto hb hm
          simp
          omega
        simp [boundedOnto, digitsOnto, hc, hd, hnone, Except.toOption]

theorem toOption_bounded {base bound : Nat} (hb : 0 < base) (hbound : 0 < bound) (cs : List Char) :
    (bounded base bound cs).toOption = unsigned? base bound cs := by
  unfold bounded
  split
  · rfl
  · rfl
  · rename_i r hr
    cases r with
    | nil => exact absurd rfl hr
    | cons c r => exact toOption_boundedOnto hb hbound (c :: r)
  · rename_i hempty _ hplus
    rw [toOption_boundedOnto hb hbound]
    unfold unsigned?
    split
    · exact absurd rfl (hplus _)
    · cases cs with
      | nil => exact absurd rfl hempty
      | cons c cs => rfl

/-- The lowest digits of a number, most significant first. -/
def hexDigits : Nat → Nat → List Char
  | 0, _ => []
  | k + 1, n => hexDigits k (n / 16) ++ [Nat.digitChar (n % 16)]

@[simp] theorem length_hexDigits (k n : Nat) : (hexDigits k n).length = k := by
  induction k generalizing n with
  | zero => rfl
  | succ k ih => simp [hexDigits, ih]

/-- An address as all its eight lower-case digits. -/
def hex (address : UInt32) : String :=
  "0x" ++ String.ofList (hexDigits 8 address.toNat)

/-- Reads an address: hexadecimal after a marker in either case, decimal without one. -/
def address? (text : String) : Option UInt32 :=
  match text.toList with
  | '0' :: 'x' :: digits | '0' :: 'X' :: digits =>
    (unsigned? 16 UInt32.size digits).map UInt32.ofNat
  | digits => (unsigned? 10 UInt32.size digits).map UInt32.ofNat

end MipsMemory.Numeral
