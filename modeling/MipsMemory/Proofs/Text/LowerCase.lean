import Mathlib.Data.List.Forall2
import MipsMemory.Text.LowerCase

/-!
Texts whose lower case is ASCII. Few characters beyond ASCII have a lower case in it, and of these
only the Kelvin sign has nothing else for its lower case. Main statement: a word of ASCII characters
that has no capitals is the lower case of exactly the texts that spell it character by character.
-/

namespace MipsMemory.Text

variable {c t : Char} {cs ts : List Char}

/-! ## Small characters -/

/-- An ASCII character that is its own lower case. -/
def IsSmall (t : Char) : Prop := t.toNat < 0x80 ∧ t.toLower = t

instance (t : Char) : Decidable (IsSmall t) :=
  inferInstanceAs (Decidable (t.toNat < 0x80 ∧ t.toLower = t))

/-- What may stand for a small character: itself, its ASCII capital, and the Kelvin sign for `k`. -/
def FoldsTo (c t : Char) : Prop := c = t ∨ c = t.toUpper ∨ c = '\u212a' ∧ t = 'k'

instance (c t : Char) : Decidable (FoldsTo c t) :=
  inferInstanceAs (Decidable (c = t ∨ c = t.toUpper ∨ c = '\u212a' ∧ t = 'k'))

/-- A property of all ASCII characters, checked one by one. -/
theorem forall_ascii {p : Char → Prop} (h : ∀ n < 0x80, p (Char.ofNat n)) (hc : c.toNat < 0x80) :
    p c := by
  have := h c.toNat hc
  rwa [Char.ofNat_toNat] at this

theorem eq_toLower_or_toUpper (hc : c.toNat < 0x80) : c = c.toLower ∨ c = c.toLower.toUpper :=
  forall_ascii (p := fun c => c = c.toLower ∨ c = c.toLower.toUpper) (by decide +kernel) hc

theorem IsSmall.toLower_toUpper (ht : IsSmall t) : t.toUpper.toNat < 0x80 ∧ t.toUpper.toLower = t :=
  forall_ascii (p := fun t => IsSmall t → t.toUpper.toNat < 0x80 ∧ t.toUpper.toLower = t)
    (by decide +kernel) ht.1 ht

theorem toLower_eq_iff (hc : c.toNat < 0x80) (ht : IsSmall t) : c.toLower = t ↔ FoldsTo c t := by
  constructor
  · rintro rfl
    rcases eq_toLower_or_toUpper hc with h | h
    · exact .inl h
    · exact .inr (.inl h)
  · rintro (rfl | rfl | ⟨rfl, -⟩)
    · exact ht.2
    · exact ht.toLower_toUpper.2
    · exact absurd hc (by decide)

/-- Beyond ASCII only the Kelvin sign stands for a small character. -/
theorem FoldsTo.ascii_or_kelvin (h : FoldsTo c t) (ht : IsSmall t) :
    c.toNat < 0x80 ∨ c = '\u212a' := by
  rcases h with rfl | rfl | ⟨rfl, -⟩
  · exact .inl ht.1
  · exact .inl ht.toLower_toUpper.1
  · exact .inr rfl

theorem foldsTo_kelvin_iff (ht : IsSmall t) : FoldsTo '\u212a' t ↔ 'k' = t := by
  constructor
  · rintro (rfl | h | ⟨-, rfl⟩)
    · exact absurd ht.1 (by decide)
    · have hascii := ht.toLower_toUpper.1
      rw [← h] at hascii
      exact absurd hascii (by decide)
    · rfl
  · rintro rfl
    exact .inr (.inr ⟨rfl, rfl⟩)

/-! ## Single characters -/

theorem toNat_ofNat {n : Nat} (h : n.isValidChar) : (Char.ofNat n).toNat = n := by
  rw [Char.ofNat, dif_pos h]
  rfl

/-- The run of the Kelvin sign holds nothing else; all others lead beyond ASCII, and to characters
throughout. -/
theorem lower_of_mem_capitalRuns {run : CapitalRun} (h : run ∈ capitalRuns) :
    run.first = 0x212a ∧ run.last = 0x212a ∨
      0x80 ≤ run.lower ∧ (run.lowerCode run.last < 0xd800 ∨
        0xdfff < run.lower ∧ run.lowerCode run.last < 0x110000) := by
  have hall : ∀ run ∈ capitalRuns, run.first = 0x212a ∧ run.last = 0x212a ∨
      0x80 ≤ run.lower ∧ (run.lowerCode run.last < 0xd800 ∨
        0xdfff < run.lower ∧ run.lowerCode run.last < 0x110000) := by
    decide +kernel
  exact hall run h

theorem lowerOf_of_beyond (hc : ¬ c.toNat < 0x80) (hdotted : c ≠ '\u0130')
    (hkelvin : c ≠ '\u212a') : ∃ x : Char, lowerOf c = [x] ∧ ¬ x.toNat < 0x80 := by
  rw [lowerOf, if_neg hc, if_neg hdotted]
  cases hfind : capitalRuns.find? (·.Contains c.toNat) with
  | none => exact ⟨c, rfl, hc⟩
  | some run =>
    have hcontains : run.Contains c.toNat := by simpa using List.find?_some hfind
    obtain ⟨hfirst, hlast, -⟩ := hcontains
    refine ⟨_, rfl, ?_⟩
    rcases lower_of_mem_capitalRuns (List.mem_of_find?_eq_some hfind) with hrun | ⟨hlower, hvalid⟩
    · -- that run would hold the character itself
      have hcode : c.toNat = 0x212a := by omega
      exact absurd (Char.ofNat_toNat c) (hcode ▸ hkelvin.symm)
    · -- within a run no code leaves the part between its ends
      have hcode : run.lower ≤ run.lowerCode c.toNat ∧
          run.lowerCode c.toNat ≤ run.lowerCode run.last := by
        unfold CapitalRun.lowerCode
        omega
      have hchar : (run.lowerCode c.toNat).isValidChar := by
        unfold Nat.isValidChar
        omega
      rw [toNat_ofNat hchar]
      omega

/-- The lower case of a character is one character, which is small exactly if the first one stands
for it. -/
def LowersTo (c : Char) (lower : List Char) : Prop :=
  ∃ x, lower = [x] ∧ ∀ t, IsSmall t → (x = t ↔ FoldsTo c t)

/-- Between characters beyond ASCII there is nothing to compare. -/
theorem lowersTo_of_beyond {x : Char} (hx : ¬ x.toNat < 0x80) (hc : ¬ c.toNat < 0x80)
    (hkelvin : c ≠ '\u212a') : LowersTo c [x] := by
  refine ⟨x, rfl, fun t ht => iff_of_false ?_ ?_⟩
  · rintro rfl
    exact hx ht.1
  · intro h
    rcases h.ascii_or_kelvin ht with hascii | rfl
    · exact hc hascii
    · exact hkelvin rfl

theorem lowerOf_lowersTo (hdotted : c ≠ '\u0130') : LowersTo c (lowerOf c) := by
  by_cases hascii : c.toNat < 0x80
  · rw [lowerOf, if_pos hascii]
    exact ⟨c.toLower, rfl, fun t ht => toLower_eq_iff hascii ht⟩
  by_cases hkelvin : c = '\u212a'
  · subst hkelvin
    have hlower : lowerOf '\u212a' = ['k'] := by decide +kernel
    exact ⟨'k', hlower, fun t ht => (foldsTo_kelvin_iff ht).symm⟩
  · obtain ⟨x, hx, hbeyond⟩ := lowerOf_of_beyond hascii hdotted hkelvin
    rw [hx]
    exact lowersTo_of_beyond hbeyond hascii hkelvin

theorem lowerBetween_cases (before : List Char) (c : Char) (after : List Char) :
    LowersTo c (lowerBetween before c after) ∨
      c = '\u0130' ∧ lowerBetween before c after = ['i', '\u0307'] := by
  unfold lowerBetween
  by_cases hsigma : c = '\u03a3'
  · left
    subst hsigma
    rw [if_pos rfl]
    split
    · exact lowersTo_of_beyond (by decide) (by decide) (by decide)
    · exact lowersTo_of_beyond (by decide) (by decide) (by decide)
  · rw [if_neg hsigma]
    by_cases hdotted : c = '\u0130'
    · right
      subst hdotted
      exact ⟨rfl, rfl⟩
    · exact .inl (lowerOf_lowersTo hdotted)

/-! ## Texts -/

theorem lowerAfter_eq_iff (before : List Char) (hts : ∀ t ∈ ts, IsSmall t) :
    lowerAfter before cs = ts ↔ List.Forall₂ FoldsTo cs ts := by
  -- on the text; what stands before it grows with each step, and matters to a sigma only
  induction cs generalizing before ts with
  | nil => simp [lowerAfter, eq_comm]
  | cons c cs ih =>
    rw [lowerAfter]
    rcases lowerBetween_cases before c cs with ⟨x, hx, hfold⟩ | ⟨rfl, hx⟩
    · cases ts with
      | nil => simp [hx]
      | cons t ts =>
        obtain ⟨ht, hts⟩ := List.forall_mem_cons.mp hts
        rw [hx, List.singleton_append, List.cons.injEq, hfold t ht, ih _ hts, List.forall₂_cons]
    · -- the dot that is left over is in no such word
      rw [hx]
      constructor
      · rintro rfl
        exact absurd (hts '\u0307' (by simp)) (by decide)
      · intro h
        cases h with
        | @cons _ t _ _ hfold _ =>
          rcases hfold.ascii_or_kelvin (hts t (by simp)) with hc | hc
          · exact absurd hc (by decide)
          · exact absurd hc (by decide)

theorem lowercase_eq_iff {text word : String} (h : ∀ t ∈ word.toList, IsSmall t) :
    lowercase text = word ↔ List.Forall₂ FoldsTo text.toList word.toList := by
  rw [← lowerAfter_eq_iff [] h, lowercase, ← String.toList_inj, String.toList_ofList]

end MipsMemory.Text
