import MipsMemory.Proofs.Numeral

/-!
Addresses as text. They are written with all their eight hexadecimal digits, and read in hexadecimal
behind a marker or in decimal without one. Main statement: every address is read back from either
way to write it, and a text is read as an address exactly if it denotes one below two to the 32nd
power.
-/

namespace MipsMemory.Numeral

variable {base n : Nat} {text : String} {cs : List Char} {address : UInt32}

/-! ## What a text denotes -/

/-- The text begins with the marker for hexadecimal, in either case. -/
def IsMarked (cs : List Char) : Prop := ['0', 'x'] <+: cs ∨ ['0', 'X'] <+: cs

/-- A numeral in hexadecimal behind a marker, or in decimal without one. A sign stands behind the
marker. -/
inductive DenotesAddress : List Char → Nat → Prop
  | hexadecimal {marker : Char} {cs : List Char} {n : Nat} (marked : marker = 'x' ∨ marker = 'X')
    (h : Denotes 16 cs n) : DenotesAddress ('0' :: marker :: cs) n
  | decimal {cs : List Char} {n : Nat} (unmarked : ¬ IsMarked cs) (h : Denotes 10 cs n) :
    DenotesAddress cs n

/-! ## Reading -/

theorem map_unsigned?_eq_some_iff (hbase : base ≤ 16) :
    (unsigned? base UInt32.size cs).map UInt32.ofNat = some address ↔
      Denotes base cs address.toNat := by
  rw [Option.map_eq_some_iff]
  constructor
  · rintro ⟨n, hn, rfl⟩
    obtain ⟨hdenotes, hsmall⟩ := (unsigned?_eq_some_iff hbase).mp hn
    rwa [UInt32.toNat_ofNat_of_lt' hsmall]
  · intro h
    exact ⟨_, (unsigned?_eq_some_iff hbase).mpr ⟨h, address.toNat_lt_size⟩, UInt32.ofNat_toNat⟩

theorem isMarked_cons {marker : Char} (h : marker = 'x' ∨ marker = 'X') :
    IsMarked ('0' :: marker :: cs) := by
  rcases h with rfl | rfl
  · exact .inl ⟨cs, rfl⟩
  · exact .inr ⟨cs, rfl⟩

theorem denotesAddress_hexadecimal_iff {marker : Char} (hmarker : marker = 'x' ∨ marker = 'X') :
    DenotesAddress ('0' :: marker :: cs) n ↔ Denotes 16 cs n := by
  constructor
  · intro h
    cases h with
    | hexadecimal _ h => exact h
    | decimal hunmarked _ => exact absurd (isMarked_cons hmarker) hunmarked
  · exact .hexadecimal hmarker

theorem denotesAddress_decimal_iff (hunmarked : ¬ IsMarked cs) :
    DenotesAddress cs n ↔ Denotes 10 cs n := by
  constructor
  · intro h
    cases h with
    | hexadecimal hmarker _ => exact absurd (isMarked_cons hmarker) hunmarked
    | decimal _ h => exact h
  · exact .decimal hunmarked

theorem address?_eq_some_iff :
    address? text = some address ↔ DenotesAddress text.toList address.toNat := by
  unfold address?
  split
  · rename_i digits hdigits
    rw [hdigits, map_unsigned?_eq_some_iff (by decide), denotesAddress_hexadecimal_iff (.inl rfl)]
  · rename_i digits hdigits
    rw [hdigits, map_unsigned?_eq_some_iff (by decide), denotesAddress_hexadecimal_iff (.inr rfl)]
  · -- neither marker matched
    rename_i hx hX
    have hunmarked : ¬ IsMarked text.toList := by
      rintro (⟨digits, hdigits⟩ | ⟨digits, hdigits⟩)
      · exact hx digits hdigits.symm
      · exact hX digits hdigits.symm
    rw [map_unsigned?_eq_some_iff (by decide), denotesAddress_decimal_iff hunmarked]

theorem address?_eq_none_iff :
    address? text = none ↔ ∀ address : UInt32, ¬ DenotesAddress text.toList address.toNat := by
  rw [Option.eq_none_iff_forall_ne_some]
  exact forall_congr' fun _ => not_congr address?_eq_some_iff

/-! ## Writing -/

theorem digits_hexDigits (k n : Nat) : Digits 16 (hexDigits (k + 1) n) (n % 16 ^ (k + 1)) := by
  have hlast (n : Nat) : IsDigit 16 (n % 16).digitChar (n % 16) :=
    ⟨Nat.mod_lt n (by decide), .inl rfl⟩
  -- from two digits on the last one is told apart from those before it
  induction k generalizing n with
  | zero => exact .of_isDigit (hlast n)
  | succ k ih =>
    have hvalue : n / 16 % 16 ^ (k + 1) * 16 + n % 16 = n % 16 ^ (k + 1 + 1) := by
      rw [pow_succ' 16 (k + 1), Nat.mod_mul]
      ring
    exact hvalue ▸ (ih (n / 16)).concat (hlast n)

theorem hexDigits_subset (k n : Nat) : hexDigits k n ⊆ "0123456789abcdef".toList := by
  induction k generalizing n with
  | zero => exact List.nil_subset _
  | succ k ih =>
    have hall : ∀ value < 16, Nat.digitChar value ∈ "0123456789abcdef".toList := by decide
    refine List.append_subset.mpr ⟨ih (n / 16), List.cons_subset.mpr ⟨?_, List.nil_subset _⟩⟩
    exact hall _ (Nat.mod_lt n (by decide))

theorem toList_hex (address : UInt32) :
    (hex address).toList = '0' :: 'x' :: hexDigits 8 address.toNat := by
  simp [hex]

theorem denotesAddress_hex (address : UInt32) :
    DenotesAddress (hex address).toList address.toNat := by
  have hdigits := digits_hexDigits 7 address.toNat
  have hsmall : address.toNat % 16 ^ 8 = address.toNat := Nat.mod_eq_of_lt address.toNat_lt_size
  rw [hsmall] at hdigits
  rw [toList_hex]
  exact .hexadecimal (.inl rfl) (.plain hdigits)

/-- A decimal numeral has no marker: it holds digits only. -/
theorem not_isMarked_toDigits (n : Nat) : ¬ IsMarked (Nat.toDigits 10 n) := by
  have hdigit {c : Char} (hc : c ∈ Nat.toDigits 10 n) : c.isDigit = true :=
    Nat.isDigit_of_mem_toDigits (by decide) (by decide) hc
  rintro (h | h)
  · exact absurd (hdigit (c := 'x') (h.subset (by simp))) (by decide)
  · exact absurd (hdigit (c := 'X') (h.subset (by simp))) (by decide)

theorem denotesAddress_repr (n : Nat) : DenotesAddress n.repr.toList n := by
  have hrepr : n.repr.toList = Nat.toDigits 10 n := by simp [Nat.repr]
  rw [hrepr]
  exact .decimal (not_isMarked_toDigits n) (.plain (digits_toDigits (by decide) n))

/-- An address is read back from its eight small hexadecimal digits, and from its decimal ones. A
text is read as the address that it denotes, and refused if it denotes none. -/
theorem addresses_read_back :
    (∀ address, address? (hex address) = some address ∧
      address? address.toNat.repr = some address ∧
      ∃ digits, hex address = "0x" ++ String.ofList digits ∧ digits.length = 8 ∧
        digits ⊆ "0123456789abcdef".toList) ∧
    (∀ text address, address? text = some address ↔ DenotesAddress text.toList address.toNat) ∧
    ∀ text, address? text = none ↔
      ∀ address : UInt32, ¬ DenotesAddress text.toList address.toNat := by
  refine ⟨?_, fun text address => address?_eq_some_iff, fun text => address?_eq_none_iff⟩
  intro address
  refine ⟨address?_eq_some_iff.mpr (denotesAddress_hex address),
    address?_eq_some_iff.mpr (denotesAddress_repr address.toNat), ?_⟩
  exact ⟨hexDigits 8 address.toNat, rfl, length_hexDigits 8 _, hexDigits_subset 8 _⟩

example : address? "0X+0fF" = some 255 ∧ address? "+0x10" = none ∧ address? "0x" = none ∧
    address? "04294967295" = some 0xffffffff ∧ address? "4294967296" = none := by
  decide

end MipsMemory.Numeral
