import MipsMemory.Proofs.Numeral
import MipsMemory.Proofs.RegisterFile.Slots

/-!
What registers may be called. A register is spelled by its number in decimal or by its conventional
name, each with or without a dollar sign in front. Main statement: in a file of any size, looking a
text up finds exactly the register that it spells, which is there to be read and written, and refuses
every other text as it stands.
-/

namespace MipsMemory

namespace RegisterFile

open Numeral (Denotes IsDigit)

variable {f : RegisterFile} {c : Char} {cs : List Char} {n m size : Nat} {name : String}

/-- A text without the dollar sign in front, if it has one. A second one stays. -/
def withoutDollar (name : String) : List Char :=
  match name.toList with
  | '$' :: bare => bare
  | bare => bare

/-- The conventional names, character by character. -/
def bareNames : List (List Char) := conventionalNames.map String.toList

/-- A text without dollar sign spells the register of a number: as a decimal numeral below two to
the 64th power, or as the conventional name in that place. -/
inductive Spells : List Char → Nat → Prop
  | numeral {cs : List Char} {n : Nat} (h : Denotes 10 cs n) (small : n < 2 ^ 64) : Spells cs n
  | name {cs : List Char} {n : Nat} (h : bareNames[n]? = some cs) : Spells cs n

/-- Some texts without dollar sign that spell no register of a file of some size. -/
inductive Misspells (size : Nat) : List Char → Prop
  | beyondWord {cs : List Char} {n : Nat} (h : Denotes 10 cs n) (large : 2 ^ 64 ≤ n) :
    Misspells size cs
  | beyondFile {cs : List Char} {n : Nat} (h : Spells cs n) (outside : size ≤ n) : Misspells size cs
  | dollar (cs : List Char) : Misspells size ('$' :: cs)
  | sign {c : Char} (h : c = '+' ∨ c = '-') : Misspells size [c]

/-! ## Numerals and names -/

theorem isDigit_and_not_isLower {value : Nat} (h : IsDigit 10 c value) :
    c.isDigit = true ∧ c.isLower = false := by
  obtain ⟨hlt, hc⟩ := h
  interval_cases value <;> rcases hc with rfl | rfl <;> exact ⟨rfl, rfl⟩

/-- A conventional name begins with a small letter. -/
theorem isLower_of_mem_bareNames (h : c :: cs ∈ bareNames) : c.isLower = true := by
  have hall : ∀ cs ∈ bareNames, cs.head?.all Char.isLower = true := by decide
  simpa using hall _ h

/-- No text is both a numeral and a conventional name. -/
theorem not_denotes_of_mem_bareNames (h : cs ∈ bareNames) : ¬ Denotes 10 cs n := by
  intro hdenotes
  cases cs with
  | nil => exact absurd h (by decide)
  | cons c cs =>
    have hlower := isLower_of_mem_bareNames h
    rcases hdenotes.head with rfl | ⟨value, hvalue⟩
    · exact absurd hlower (by decide)
    · rw [(isDigit_and_not_isLower hvalue).2] at hlower
      cases hlower

/-- A spelling begins with a plus sign, a digit or a small letter. -/
theorem Spells.head (h : Spells (c :: cs) n) : c = '+' ∨ c.isDigit = true ∨ c.isLower = true := by
  cases h with
  | numeral hdenotes =>
    rcases hdenotes.head with rfl | ⟨value, hvalue⟩
    · exact .inl rfl
    · exact .inr (.inl (isDigit_and_not_isLower hvalue).1)
  | name hname => exact .inr (.inr (isLower_of_mem_bareNames (List.mem_of_getElem? hname)))

/-! ## Looking up -/

/-- No two registers have the same conventional name. -/
theorem findIdx?_toList_eq_some_iff :
    conventionalNames.findIdx? (·.toList = cs) = some n ↔ bareNames[n]? = some cs := by
  have hnodup : bareNames.Nodup := by decide
  have hfind : conventionalNames.findIdx? (·.toList = cs) = bareNames.findIdx? (· = cs) := by
    rw [bareNames, List.findIdx?_map]
    rfl
  rw [hfind, List.findIdx?_eq_some_iff_getElem, List.getElem?_eq_some_iff]
  constructor
  · rintro ⟨hn, hname, -⟩
    exact ⟨hn, by simpa using hname⟩
  · rintro ⟨hn, rfl⟩
    refine ⟨hn, by simp, fun j hj => ?_⟩
    simpa using List.pairwise_iff_getElem.mp hnodup j n (Nat.lt_trans hj hn) hn hj

theorem number?_eq_some_iff : number? cs = some n ↔ Spells cs n := by
  have hread (k : Nat) : Numeral.unsigned? 10 UInt64.size cs = some k ↔
      Denotes 10 cs k ∧ k < 2 ^ 64 := Numeral.unsigned?_eq_some_iff (by decide)
  unfold number?
  constructor
  · intro h
    split at h
    · rename_i k hk
      cases h
      obtain ⟨hdenotes, hsmall⟩ := (hread _).mp hk
      exact .numeral hdenotes hsmall
    · exact .name (findIdx?_toList_eq_some_iff.mp h)
  · intro h
    cases h with
    | numeral hdenotes hsmall => rw [(hread n).mpr ⟨hdenotes, hsmall⟩]
    | name hname =>
      -- a numeral would be found first, but a name is none
      have hnone : Numeral.unsigned? 10 UInt64.size cs = none := by
        rw [Option.eq_none_iff_forall_ne_some]
        intro k hk
        exact not_denotes_of_mem_bareNames (List.mem_of_getElem? hname) ((hread k).mp hk).1
      rw [hnone]
      exact findIdx?_toList_eq_some_iff.mpr hname

theorem Spells.unique (hn : Spells cs n) (hm : Spells cs m) : n = m :=
  Option.some.inj ((number?_eq_some_iff.mpr hn).symm.trans (number?_eq_some_iff.mpr hm))

theorem lookup_eq (f : RegisterFile) (name : String) :
    f.lookup name =
      match (number? (withoutDollar name)).filter (· < f.registers.length) with
      | some n => .ok n
      | none => .error (.unknownRegisterName name) := rfl

theorem lookup_eq_ok_iff :
    f.lookup name = .ok n ↔ n < f.registers.length ∧ Spells (withoutDollar name) n := by
  have hfound : (number? (withoutDollar name)).filter (· < f.registers.length) = some n ↔
      n < f.registers.length ∧ Spells (withoutDollar name) n := by
    rw [Option.filter_eq_some_iff, number?_eq_some_iff, decide_eq_true_eq, and_comm]
  rw [← hfound, lookup_eq]
  cases (number? (withoutDollar name)).filter (· < f.registers.length) <;> simp

theorem lookup_eq_error (h : ∀ n < f.registers.length, ¬ Spells (withoutDollar name) n) :
    f.lookup name = .error (.unknownRegisterName name) := by
  have hnone : (number? (withoutDollar name)).filter (· < f.registers.length) = none := by
    rw [Option.filter_eq_none_iff]
    intro n hn hlt
    exact h n (by simpa using hlt) (number?_eq_some_iff.mp hn)
  rw [lookup_eq, hnone]

/-! ## Spellings -/

/-- What is misspelled spells no register of the file. -/
theorem Misspells.not_spells (h : Misspells size cs) (hn : n < size) : ¬ Spells cs n := by
  intro hspells
  cases h with
  | beyondWord hdenotes hlarge =>
    cases hspells with
    | numeral hother hsmall =>
      have heq := hdenotes.unique (by decide) hother
      omega
    | name hname => exact not_denotes_of_mem_bareNames (List.mem_of_getElem? hname) hdenotes
  | beyondFile hother houtside =>
    have heq := hspells.unique hother
    omega
  | dollar => exact absurd hspells.head (by decide)
  | sign hsign =>
    rcases hsign with rfl | rfl
    · cases hspells with
      | numeral hdenotes => exact Numeral.not_denotes_sign (by decide) hdenotes
      | name hname => exact absurd (List.mem_of_getElem? hname) (by decide)
    · exact absurd hspells.head (by decide)

/-- Looking a text up finds the register that it spells, if the file has it, and nothing else. So a
numeral beyond a 64-bit word, a register that the file does not have, a second dollar sign and a sign
by itself are refused, as is every other text that spells nothing. What is found can be read and
written, and is found again by its other spellings. -/
theorem lookup_finds_spellings (f : RegisterFile) (name : String) :
    (∀ n, f.lookup name = .ok n ↔ n < f.registers.length ∧ Spells (withoutDollar name) n) ∧
    ((∀ n < f.registers.length, ¬ Spells (withoutDollar name) n) →
      f.lookup name = .error (.unknownRegisterName name)) ∧
    (Misspells f.registers.length (withoutDollar name) →
      f.lookup name = .error (.unknownRegisterName name)) ∧
    ∀ n, f.lookup name = .ok n →
      (∃ value, f.read n = .ok value) ∧
      (∀ value, ∃ previous g, f.write n value = .ok (previous, g)) ∧
      ∀ other, Spells (withoutDollar other) n → f.lookup other = .ok n := by
  refine ⟨fun n => lookup_eq_ok_iff, lookup_eq_error, ?_, ?_⟩
  · intro h
    exact lookup_eq_error fun n hn => h.not_spells hn
  · intro n h
    obtain ⟨hlt, -⟩ := lookup_eq_ok_iff.mp h
    refine ⟨?_, ?_, ?_⟩
    · obtain ⟨r, hr⟩ := exists_get hlt
      exact ⟨r.value, map_eq_ok_iff.mpr ⟨r, hr, rfl⟩⟩
    · intro value
      obtain ⟨previous, hwrite⟩ := exists_write hlt value
      exact ⟨previous, _, hwrite⟩
    · intro other hother
      exact lookup_eq_ok_iff.mpr ⟨hlt, hother⟩

/-- Nine registers: the last has several spellings, and the next is not there to be found. -/
theorem lookup_finds_spellings_nine :
    let f : RegisterFile := ⟨blank.registers.take 9, 0, 0, 0⟩
    f.lookup "$t0" = .ok 8 ∧ f.lookup "+008" = .ok 8 ∧ (∃ value, f.read 8 = .ok value) ∧
      f.lookup "t1" = .error (.unknownRegisterName "t1") ∧
      f.lookup "$$t0" = .error (.unknownRegisterName "$$t0") ∧
      f.lookup "$+" = .error (.unknownRegisterName "$+") ∧
      f.lookup "18446744073709551616" = .error (.unknownRegisterName "18446744073709551616") := by
  intro f
  have hnumeral : Denotes 10 (withoutDollar "+008") 8 ∧ 8 < 2 ^ 64 :=
    (Numeral.unsigned?_eq_some_iff (by decide)).mp (by decide)
  have hlarge : Denotes 10 (withoutDollar "18446744073709551616") (2 ^ 64) ∧ 2 ^ 64 < 2 ^ 65 :=
    (Numeral.unsigned?_eq_some_iff (by decide)).mp (by decide)
  have hfound : f.lookup "$t0" = .ok 8 :=
    ((lookup_finds_spellings f "$t0").1 8).mpr ⟨by decide, .name rfl⟩
  obtain ⟨hread, -, hagree⟩ := (lookup_finds_spellings f "$t0").2.2.2 8 hfound
  refine ⟨hfound, hagree "+008" (.numeral hnumeral.1 hnumeral.2), hread, ?_, ?_, ?_, ?_⟩
  · have hname : Spells (withoutDollar "t1") 9 := .name rfl
    exact (lookup_finds_spellings f "t1").2.2.1 (.beyondFile hname (by decide))
  · exact (lookup_finds_spellings f "$$t0").2.2.1 (.dollar _)
  · exact (lookup_finds_spellings f "$+").2.2.1 (.sign (.inl rfl))
  · exact (lookup_finds_spellings f "18446744073709551616").2.2.1
      (.beyondWord hlarge.1 (Nat.le_refl _))

end RegisterFile

end MipsMemory
