import MipsMemory.Proofs.Allocator.AutoAlign

/-!
Alignments one after another. An alignment leads to the least multiple that is not below, so what a
second one does depends on which of the two asks for more. Main statement: in every state that
operations lead to, aligning again changes nothing, aligning to less moves nothing and cannot fail,
and aligning to more does what it would have done without the first.
-/

namespace MipsMemory

open Allocator (Operation)

theorem Width.bytes_le_of_ofExponent {exponent exponent' : Nat} {width width' : Width}
    (h : Width.ofExponent exponent = .ok width) (h' : Width.ofExponent exponent' = .ok width')
    (hle : exponent ≤ exponent') : width.bytes ≤ width'.bytes := by
  rw [width.bytes_eq_of_ofExponent h, width'.bytes_eq_of_ofExponent h']
  exact Nat.pow_le_pow_right Nat.two_pos hle

theorem Width.exists_ofExponent_of_le {exponent exponent' : Nat} {width : Width}
    (h : Width.ofExponent exponent = .ok width) (hle : exponent' ≤ exponent) :
    ∃ width', Width.ofExponent exponent' = .ok width' := by
  have hmax : width.exponent ≤ 3 := by cases width <;> decide
  rw [width.eq_exponent_of_ofExponent h] at hle
  exact Width.exists_ofExponent (Nat.le_trans hle hmax)

/-! ## Cursors -/

namespace Cursor

variable {c d : Cursor} {width width' : Width} {address : UInt32}

/-- The cursor after an alignment, if there is room for it. -/
def aligned (c : Cursor) (width : Width) : Cursor :=
  { c with offset := width.alignUp c.offset, autoAlign := width != .byte }

/-- The offset lies in the region and has an address. -/
structure Addressable (c : Cursor) : Prop where
  room : c.offset ≤ c.region.capacity
  top : c.region.base.toNat + c.offset < UInt32.size

/-- Whether an alignment succeeds is decided by the cursor that it leads to. -/
theorem align_eq_ok_iff_aligned :
    c.align width = .ok (address, d) ↔
      (c.aligned width).Addressable ∧ d = c.aligned width ∧ address = d.addressOf d.offset := by
  rw [align_eq_ok_iff]
  constructor
  · rintro ⟨room, top, rfl, rfl⟩
    exact ⟨⟨room, top⟩, rfl, rfl⟩
  · rintro ⟨⟨room, top⟩, rfl, rfl⟩
    exact ⟨room, top, rfl, rfl⟩

/-- The stronger alignment decides if it comes second. -/
theorem Bounded.aligned_aligned_of_le (hc : c.Bounded) (h : width.bytes ≤ width'.bytes) :
    (c.aligned width).aligned width' = c.aligned width' := by
  simp only [aligned, Width.alignUp_alignUp_of_le h hc.add_seven_le]

/-- If it comes first the other one has nothing left to skip. -/
theorem Bounded.aligned_aligned_of_ge (hc : c.Bounded) (h : width'.bytes ≤ width.bytes) :
    (c.aligned width).aligned width' =
      { c.aligned width with autoAlign := width' != .byte } := by
  simp only [aligned, Width.alignUp_alignUp_of_ge h hc.add_seven_le]

theorem isLeast_offset_aligned (hc : c.Bounded) (width : Width) :
    IsLeast {n | width.bytes ∣ n ∧ c.offset ≤ n} (c.aligned width).offset := by
  simp only [Nat.dvd_iff_mod_eq_zero]
  exact width.isLeast_alignUp hc.add_seven_le

end Cursor

/-! ## Allocators -/

namespace Allocator

variable {a b : Allocator} {exponent exponent' : Nat} {address : UInt32}

theorem align_eq_ok_iff_aligned {width : Width} (h : Width.ofExponent exponent = .ok width) :
    a.align exponent = .ok (address, b) ↔
      (a.active.aligned width).Addressable ∧ b = a.setActive (a.active.aligned width) ∧
        address = b.active.addressOf b.active.offset := by
  rw [align_eq_ok_iff]
  constructor
  · rintro ⟨width', c, h', hc, rfl⟩
    obtain rfl := Except.ok.inj (h.symm.trans h')
    obtain ⟨haddressable, rfl, rfl⟩ := Cursor.align_eq_ok_iff_aligned.mp hc
    refine ⟨haddressable, rfl, ?_⟩
    rw [active_setActive]
  · rintro ⟨haddressable, rfl, rfl⟩
    rw [active_setActive]
    exact ⟨width, _, h, Cursor.align_eq_ok_iff_aligned.mpr ⟨haddressable, rfl, rfl⟩, rfl⟩

theorem align_of_align_ge (hbounded : a.active.Bounded) (h : a.align exponent = .ok (address, b))
    (hle : exponent' ≤ exponent) :
    b.align exponent' =
      .ok (address, b.setActive { b.active with autoAlign := exponent' != 0 }) := by
  obtain ⟨width, _, hwidth, -, -⟩ := align_eq_ok_iff.mp h
  obtain ⟨width', hwidth'⟩ := Width.exists_ofExponent_of_le hwidth hle
  obtain ⟨haddressable, rfl, rfl⟩ := (align_eq_ok_iff_aligned hwidth).mp h
  have hsecond := hbounded.aligned_aligned_of_ge (Width.bytes_le_of_ofExponent hwidth' hwidth hle)
  rw [align_eq_ok_iff_aligned hwidth', Width.bne_zero_of_ofExponent hwidth']
  rw [active_setActive, active_setActive, hsecond]
  exact ⟨⟨haddressable.room, haddressable.top⟩, rfl, rfl⟩

theorem align_of_align_le (hbounded : a.active.Bounded) (h : a.align exponent = .ok (address, b))
    (hle : exponent ≤ exponent') {address' : UInt32} {b' : Allocator}
    (h' : b.align exponent' = .ok (address', b')) : a.align exponent' = .ok (address', b') := by
  obtain ⟨width, _, hwidth, -, -⟩ := align_eq_ok_iff.mp h
  obtain ⟨width', _, hwidth', -, -⟩ := align_eq_ok_iff.mp h'
  obtain ⟨-, rfl, -⟩ := (align_eq_ok_iff_aligned hwidth).mp h
  have hsecond := hbounded.aligned_aligned_of_le (Width.bytes_le_of_ofExponent hwidth hwidth' hle)
  rw [align_eq_ok_iff_aligned hwidth'] at h' ⊢
  rwa [active_setActive, setActive_setActive, hsecond] at h'

/-- An alignment fills the selected segment to the least multiple that is not below, and answers its
address. The same alignment changes nothing after it, and a weaker one only the flag for automatic
alignment; a stronger one that succeeds after it succeeds by itself, with the same result. -/
theorem align_align (m : MemoryMap) (earlier : List Operation) {exponent : Nat} {address : UInt32}
    {b : Allocator} (h : ((fresh m).run earlier).2.align exponent = .ok (address, b)) :
    let a := ((fresh m).run earlier).2
    IsLeast {n | 2 ^ exponent ∣ n ∧ a.active.offset ≤ n} b.active.offset ∧
    b.align exponent = .ok (address, b) ∧
    (∀ weaker ≤ exponent,
      b.align weaker = .ok (address, b.setActive { b.active with autoAlign := weaker != 0 })) ∧
    ∀ stronger ≥ exponent, ∀ address' b', b.align stronger = .ok (address', b') →
      a.align stronger = .ok (address', b') := by
  intro a
  obtain ⟨-, hbounded⟩ := active_run m earlier
  obtain ⟨width, _, hwidth, -, -⟩ := align_eq_ok_iff.mp h
  obtain ⟨-, hb, -⟩ := (align_eq_ok_iff_aligned hwidth).mp h
  refine ⟨?_, ?_, ?_, ?_⟩
  · rw [hb, active_setActive, ← width.bytes_eq_of_ofExponent hwidth]
    exact Cursor.isLeast_offset_aligned hbounded width
  · have hflag : b.active.autoAlign = (exponent != 0) := by
      rw [hb, active_setActive, Width.bne_zero_of_ofExponent hwidth]
      rfl
    have hagain := align_of_align_ge hbounded h (Nat.le_refl exponent)
    rwa [← hflag, setActive_active] at hagain
  · intro weaker hle
    exact align_of_align_ge hbounded h hle
  · intro stronger hle address' b' h'
    exact align_of_align_le hbounded h hle h'

/-- Halfwords, then bytes, halfwords again and doublewords, from an odd offset in kernel data that
ends with the address space. -/
theorem align_align_top :
    let m := { MemoryMap.standard with kdata := ⟨0xfffffff0, 0xffffffff⟩ }
    let a := ((fresh m).run [.select .kernelData, .emit .byte 5]).2
    let b := (a.step (.align 1)).2
    a.align 1 = .ok (0xfffffff6, b) ∧
      IsLeast {n | 2 ^ 1 ∣ n ∧ a.active.offset ≤ n} b.active.offset ∧
      b.align 1 = .ok (0xfffffff6, b) ∧
      b.align 0 = .ok (0xfffffff6, b.setActive { b.active with autoAlign := false }) ∧
      ∃ b', b.align 3 = .ok (0xfffffff8, b') ∧ a.align 3 = .ok (0xfffffff8, b') := by
  intro m a b
  have hfirst : a.align 1 = .ok (0xfffffff6, b) := by decide +kernel
  have hsecond : b.align 3 = .ok (0xfffffff8, (b.step (.align 3)).2) := by decide +kernel
  obtain ⟨hleast, hagain, hweaker, hstronger⟩ :=
    align_align m [.select .kernelData, .emit .byte 5] hfirst
  exact ⟨hfirst, hleast, hagain, hweaker 0 (by decide), _, hsecond,
    hstronger 3 (by decide) _ _ hsecond⟩

end Allocator

end MipsMemory
