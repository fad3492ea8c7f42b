import Mathlib.Order.Bounds.Basic
import MipsMemory.Proofs.Alignment

/-!
Rounding to widths. Main statement: on numbers that stay seven below the top of a 64-bit word,
adding the mask and clearing it again is rounding up to the least multiple. It is monotone, leaves
exactly the multiples as they are, and of two roundings the one to the larger width decides.
-/

namespace MipsMemory.Width

variable {u v : Nat}

/-- Widths compare as their byte counts do. -/
instance : Max Width := ⟨fun w w' => if w.bytes ≤ w'.bytes then w' else w⟩

theorem max_def (w w' : Width) : max w w' = if w.bytes ≤ w'.bytes then w' else w := rfl

theorem isLeast_alignUp (w : Width) (h : v + 7 ≤ word64Max) :
    IsLeast {n | w.IsAligned n ∧ v ≤ n} (w.alignUp v) :=
  ⟨⟨w.isAligned_alignUp h, w.le_alignUp h⟩, fun _ hn => w.alignUp_le_of_isAligned h hn.1 hn.2⟩

theorem isAligned_iff_alignUp_eq (w : Width) (h : v + 7 ≤ word64Max) :
    w.IsAligned v ↔ w.alignUp v = v := by
  constructor
  · exact w.alignUp_of_isAligned h
  · intro hfixed
    rw [← hfixed]
    exact w.isAligned_alignUp h

theorem alignUp_mono (w : Width) (hle : u ≤ v) (h : v + 7 ≤ word64Max) :
    w.alignUp u ≤ w.alignUp v := by
  have hu : u + 7 ≤ word64Max := Nat.le_trans (Nat.add_le_add_right hle 7) h
  exact w.alignUp_le_of_isAligned hu (w.isAligned_alignUp h) (Nat.le_trans hle (w.le_alignUp h))

/-- Of two roundings the one to the larger width decides, whichever comes first. -/
theorem alignUp_alignUp (w w' : Width) (h : v + 7 ≤ word64Max) :
    w'.alignUp (w.alignUp v) = (max w w').alignUp v := by
  rw [max_def]
  split
  · rename_i hle
    exact alignUp_alignUp_of_le hle h
  · rename_i hlt
    exact alignUp_alignUp_of_ge (Nat.le_of_not_le hlt) h

/-- The same on words: the mask is added, and its complement keeps the rest. -/
theorem toNat_add_and_not_mask (w : Width) (word : UInt64) (h : word.toNat + 7 ≤ word64Max) :
    ((word + UInt64.ofNat w.lowMask) &&& ~~~UInt64.ofNat w.lowMask).toNat =
      w.alignUp word.toNat := by
  have hmask : (UInt64.ofNat w.lowMask).toNat = w.lowMask := by cases w <;> rfl
  have hkept : (~~~UInt64.ofNat w.lowMask).toNat = word64Max ^^^ w.lowMask := by cases w <;> rfl
  have hlow := w.lowMask_le
  have hsum : (word + UInt64.ofNat w.lowMask).toNat = word.toNat + w.lowMask := by
    rw [UInt64.toNat_add, hmask]
    exact Nat.mod_eq_of_lt (by rw [word64Max_eq] at h; omega)
  rw [UInt64.toNat_and, hsum, hkept, alignUp]

/-- Rounding by the mask is arithmetic rounding: to the least multiple of the width that is not
below. It moves nothing that is aligned and all else by less than the width, keeps the order, and
after or before another rounding amounts to the one with the larger width. -/
theorem alignUp_rounds (w w' : Width) (word : UInt64) (h : word.toNat + 7 < UInt64.size) :
    let v := word.toNat
    ((word + UInt64.ofNat w.lowMask) &&& ~~~UInt64.ofNat w.lowMask).toNat = w.alignUp v ∧
    IsLeast {n | w.bytes ∣ n ∧ v ≤ n} (w.alignUp v) ∧ w.alignUp v < v + w.bytes ∧
    (w.IsAligned v ↔ w.alignUp v = v) ∧
    (∀ u ≤ v, w.alignUp u ≤ w.alignUp v) ∧
    w.alignUp (w'.alignUp v) = (max w w').alignUp v ∧
    w'.alignUp (w.alignUp v) = (max w w').alignUp v := by
  intro v
  have hv : v + 7 ≤ word64Max := Nat.le_sub_one_of_lt h
  have hmax : max w' w = max w w' := by cases w <;> cases w' <;> rfl
  refine ⟨w.toNat_add_and_not_mask word hv, ?_, w.alignUp_lt hv, w.isAligned_iff_alignUp_eq hv,
    fun u hu => w.alignUp_mono hu hv, ?_, alignUp_alignUp w w' hv⟩
  · simp only [Nat.dvd_iff_mod_eq_zero]
    exact w.isLeast_alignUp hv
  · rw [alignUp_alignUp w' w hv, hmax]

/-- An odd number close below the top of a word, rounded to halfwords and then to doublewords. -/
theorem alignUp_rounds_top :
    let word : UInt64 := 0xfffffffffffffff3
    let v := word.toNat
    v + 7 < UInt64.size ∧ half.alignUp v = 0xfffffffffffffff4 ∧
      IsLeast {n | half.bytes ∣ n ∧ v ≤ n} 0xfffffffffffffff4 ∧ ¬ half.IsAligned v ∧
      half.alignUp 1 ≤ 0xfffffffffffffff4 ∧ double.alignUp (half.alignUp v) = 0xfffffffffffffff8 := by
  intro word v
  have hsmall : v + 7 < UInt64.size := by decide
  have hround : half.alignUp v = 0xfffffffffffffff4 := by decide
  have hlarger : (max half double).alignUp v = 0xfffffffffffffff8 := by decide
  obtain ⟨-, hleast, -, hfixed, hmono, -, htwice⟩ := alignUp_rounds half double word hsmall
  refine ⟨hsmall, hround, hround ▸ hleast, ?_, hround ▸ hmono 1 (by decide), htwice.trans hlarger⟩
  rw [hfixed, hround]
  decide

end MipsMemory.Width
