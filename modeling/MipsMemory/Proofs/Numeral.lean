import Mathlib.Data.Nat.Digits.Lemmas
import Mathlib.Tactic.IntervalCases
import Mathlib.Tactic.Ring
import MipsMemory.Numeral

/-!
Which texts are numerals. A numeral is told by the values of its digits and by what they amount to
in a base, apart from how it is read. Main statements: reading finds exactly the numerals below its
bound, and no text is the numeral of two numbers.
-/

namespace MipsMemory.Numeral

variable {base bound n m value : Nat} {c : Char} {cs : List Char}

/-! ## Digits -/

/-- The character is the digit of a value, in either case. -/
def IsDigit (base : Nat) (c : Char) (value : Nat) : Prop :=
  value < base ∧ (c = value.digitChar ∨ c = value.digitChar.toUpper)

theorem le_iff_toNat_le {c d : Char} : c ≤ d ↔ c.toNat ≤ d.toNat := by
  rw [Char.le_def, UInt32.le_iff_toNat_le]
  rfl

/-- Digits follow each other in three runs of codes. -/
theorem toNat_of_digit? (h : digit? base c = some value) :
    value < base ∧
      (value < 10 ∧ c.toNat = 48 + value ∨ 10 ≤ value ∧ c.toNat = 87 + value ∨
        10 ≤ value ∧ c.toNat = 55 + value) := by
  unfold digit? at h
  simp only [le_iff_toNat_le, Option.ite_none_right_eq_some, Option.some.injEq] at h
  obtain ⟨hlt, rfl⟩ := h
  refine ⟨hlt, ?_⟩
  split_ifs at hlt ⊢ with hdecimal hlower hupper
  · left
    simp at hdecimal ⊢
    omega
  · simp at hlower ⊢
    omega
  · simp at hupper ⊢
    omega
  · omega

theorem digit?_eq_some_iff (hbase : base ≤ 16) :
    digit? base c = some value ↔ IsDigit base c value := by
  constructor
  · intro h
    obtain ⟨hlt, hcode⟩ := toNat_of_digit? h
    have hchar := Char.ofNat_toNat c
    refine ⟨hlt, ?_⟩
    have hvalue : value < 16 := by omega
    rcases hcode with ⟨hsmall, hcode⟩ | ⟨hlarge, hcode⟩ | ⟨hlarge, hcode⟩
    · left
      rw [← hchar, hcode]
      interval_cases value <;> rfl
    · left
      rw [← hchar, hcode]
      interval_cases value <;> rfl
    · right
      rw [← hchar, hcode]
      interval_cases value <;> rfl
  · rintro ⟨hlt, rfl | rfl⟩
    · have hvalue : value < 16 := by omega
      interval_cases value <;> exact if_pos hlt
    · have hvalue : value < 16 := by omega
      interval_cases value <;> exact if_pos hlt

theorem not_isDigit_plus (hbase : base ≤ 16) (value : Nat) : ¬ IsDigit base '+' value := by
  rw [← digit?_eq_some_iff hbase]
  intro h
  have hcode := (toNat_of_digit? h).2
  simp at hcode
  omega

/-! ## Digit strings -/

/-- Digits, at least one, and what they amount to. Leading zeros count for nothing. -/
def Digits (base : Nat) (cs : List Char) (n : Nat) : Prop :=
  cs ≠ [] ∧ ∃ values, List.Forall₂ (IsDigit base) cs values ∧ Nat.ofDigits base values.reverse = n

theorem digitsOnto_eq_some_iff (hbase : base ≤ 16) :
    digitsOnto base n cs = some m ↔ ∃ values, List.Forall₂ (IsDigit base) cs values ∧
      n * base ^ cs.length + Nat.ofDigits base values.reverse = m := by
  induction cs generalizing n with
  | nil => simp [digitsOnto]
  | cons c cs ih =>
    rw [digitsOnto, Option.bind_eq_some_iff]
    have hstep (value : Nat) (values : List Nat) (h : List.Forall₂ (IsDigit base) cs values) :
        (n * base + value) * base ^ cs.length + Nat.ofDigits base values.reverse =
          n * base ^ (c :: cs).length + Nat.ofDigits base (value :: values).reverse := by
      rw [Nat.ofDigits_reverse_cons, List.length_cons, h.length_eq]
      ring
    constructor
    · rintro ⟨value, hvalue, honto⟩
      obtain ⟨values, hvalues, rfl⟩ := ih.mp honto
      exact ⟨value :: values, .cons ((digit?_eq_some_iff hbase).mp hvalue) hvalues,
        (hstep value values hvalues).symm⟩
    · rintro ⟨_, hall, rfl⟩
      cases hall with
      | @cons _ value _ values hvalue hvalues =>
        exact ⟨value, (digit?_eq_some_iff hbase).mpr hvalue,
          ih.mpr ⟨values, hvalues, hstep value values hvalues⟩⟩

theorem digits?_eq_some_iff (hbase : base ≤ 16) : digits? base cs = some n ↔ Digits base cs n := by
  cases cs with
  | nil => simp [digits?, Digits]
  | cons c cs => simp [digits?, Digits, digitsOnto_eq_some_iff hbase]

theorem Digits.of_isDigit (h : IsDigit base c value) : Digits base [c] value :=
  ⟨List.cons_ne_nil _ _, [value], .cons h .nil, by simp⟩

theorem Digits.concat (h : Digits base cs n) (hc : IsDigit base c value) :
    Digits base (cs ++ [c]) (n * base + value) := by
  obtain ⟨-, values, hall, rfl⟩ := h
  refine ⟨by simp, values ++ [value], List.rel_append hall (.cons hc .nil), ?_⟩
  rw [List.reverse_append, List.reverse_singleton, List.singleton_append, Nat.ofDigits_cons]
  ring

/-- The digits that a number is written with amount to it. -/
theorem digits_toDigits (hbase : 1 < base) (n : Nat) : Digits base (Nat.toDigits base n) n := by
  induction n using Nat.strongRecOn with
  | ind n ih =>
    by_cases h : n < base
    · rw [Nat.toDigits_of_lt_base h]
      exact .of_isDigit ⟨h, .inl rfl⟩
    · have hpos : 0 < n := by omega
      have hlast : IsDigit base (n % base).digitChar (n % base) :=
        ⟨Nat.mod_lt n (Nat.lt_trans Nat.zero_lt_one hbase), .inl rfl⟩
      have hdigits := (ih (n / base) (Nat.div_lt_self hpos hbase)).concat hlast
      rwa [Nat.div_add_mod', ← Nat.toDigits_of_base_le hbase (Nat.not_lt.mp h)] at hdigits

/-! ## Numerals -/

/-- Digits after at most one plus sign. -/
inductive Denotes (base : Nat) : List Char → Nat → Prop
  | plain {cs : List Char} {n : Nat} (h : Digits base cs n) : Denotes base cs n
  | signed {cs : List Char} {n : Nat} (h : Digits base cs n) : Denotes base ('+' :: cs) n

theorem not_digits_plus (hbase : base ≤ 16) : ¬ Digits base ('+' :: cs) n := by
  rintro ⟨-, values, hall, -⟩
  cases hall with
  | cons hvalue => exact not_isDigit_plus hbase _ hvalue

theorem unsigned?_eq_some_iff (hbase : base ≤ 16) :
    unsigned? base bound cs = some n ↔ Denotes base cs n ∧ n < bound := by
  unfold unsigned?
  simp only [Option.filter_eq_some_iff, decide_eq_true_eq, digits?_eq_some_iff hbase]
  refine and_congr_left fun _ => ?_
  split
  · rename_i r
    constructor
    · intro h
      exact .signed h
    · intro h
      cases h with
      | plain h => exact absurd h (not_digits_plus hbase)
      | signed h => exact h
  · rename_i hplus
    constructor
    · intro h
      exact .plain h
    · intro h
      cases h with
      | plain h => exact h
      | signed => exact absurd rfl (hplus _)

/-- A numeral begins with a plus sign or a digit. -/
theorem Denotes.head (h : Denotes base (c :: cs) n) : c = '+' ∨ ∃ value, IsDigit base c value := by
  cases h with
  | plain h =>
    obtain ⟨-, values, hall, -⟩ := h
    cases hall with
    | cons hvalue => exact .inr ⟨_, hvalue⟩
  | signed => exact .inl rfl

theorem not_denotes_sign (hbase : base ≤ 16) : ¬ Denotes base ['+'] n := by
  intro h
  cases h with
  | plain h => exact not_digits_plus hbase h
  | signed h => exact h.1 rfl

theorem Denotes.unique (hbase : base ≤ 16) (hn : Denotes base cs n) (hm : Denotes base cs m) :
    n = m := by
  have hreadn := (unsigned?_eq_some_iff hbase).mpr ⟨hn, Nat.lt_succ_of_le (Nat.le_max_left n m)⟩
  have hreadm := (unsigned?_eq_some_iff hbase).mpr ⟨hm, Nat.lt_succ_of_le (Nat.le_max_right n m)⟩
  exact Option.some.inj (hreadn.symm.trans hreadm)

end MipsMemory.Numeral
