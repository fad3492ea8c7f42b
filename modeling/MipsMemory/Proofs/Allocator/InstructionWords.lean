import MipsMemory.Proofs.Allocator.Advance
import MipsMemory.Proofs.Allocator.Limits

/-!
Where instruction words may live. A fetch is held to the limit of a text span, which is a start
address; an allocator is held to the capacity of a text region, which runs to the end of the word at
that limit and is cut off at zero. Main statement: for words at word boundaries the two are the same
bound, whatever the map. What is emitted there into a text segment may be fetched, and wherever a
fetch is allowed some run emits a word.
-/

namespace MipsMemory

namespace MemoryMap

variable {m : MemoryMap} {address : UInt32}

/-- A word that starts before the end of the word at a limit starts at the limit at the latest. -/
theorem le_of_lt_wordEnd {last : UInt32} (haligned : Width.word.IsAligned address.toNat)
    (h : address.toNat < wordEnd last) : address ≤ last := by
  rw [Width.IsAligned] at haligned
  rw [wordEnd_eq] at h
  rw [UInt32.le_iff_toNat_le]
  simp only [Width.bytes] at haligned
  omega

theorem validateFetch_of_covered (haligned : Width.word.IsAligned address.toNat)
    (h : Covered m.fetchRegions address.toNat .word) : m.validateFetch address = .ok address := by
  obtain ⟨region, hregion, hbytes⟩ := h
  rw [fetchRegions_eq] at hregion
  obtain ⟨span, hspan, rfl⟩ := List.mem_map.mp hregion
  obtain ⟨hfirst, hlast⟩ := Region.holds_upTo.mp (hbytes 0 Width.word.bytes_pos)
  exact checkAccess_eq_ok_iff.mpr ⟨rfl, haligned, span, hspan,
    UInt32.le_iff_toNat_le.mpr hfirst, le_of_lt_wordEnd haligned hlast⟩

theorem mem_fetchRegions_iff {region : Region} :
    region ∈ m.fetchRegions ↔ ∃ s : Segment, s.isText = true ∧ region = m.region s := by
  simp only [fetchRegions, List.mem_cons, List.not_mem_nil, or_false]
  constructor
  · rintro (rfl | rfl)
    · exact ⟨.text, rfl, rfl⟩
    · exact ⟨.kernelText, rfl, rfl⟩
  · rintro ⟨s, hs, rfl⟩
    cases s with
    | text => exact .inl rfl
    | kernelText => exact .inr rfl
    | data | kernelData => cases hs

end MemoryMap

namespace Allocator

variable {m : MemoryMap}

/-! ## Words that are emitted -/

theorem validateFetch_emitted {operations : List Operation} {count : Nat} {x : Allocation}
    (htext : ((fresh m).run operations).2.current.isText = true)
    (hx : x ∈ answered (((fresh m).run operations).2.step (.emit .word count)).1)
    (haligned : Width.word.IsAligned x.address.toNat) :
    m.validateFetch x.address = .ok x.address :=
  MemoryMap.validateFetch_of_covered haligned
    ⟨_, MemoryMap.mem_fetchRegions_iff.mpr ⟨_, htext, rfl⟩, fun _ => holds_of_mem_answered_emit hx⟩

/-! ## Words that are reached -/

/-- Switches the automatic alignment of a segment off and passes over some bytes. Unless the base is
a word boundary itself, no aligned offset leads to one. -/
def approach (s : Segment) (skip : UInt32) : List Operation := [.select s, .align 0, .reserve skip]

theorem run_approach {shown : Segment} {r : Region} (hr : r.base.toNat + r.capacity ≤ UInt32.size)
    {skip : UInt32} (h : skip.toNat ≤ r.capacity) :
    ((Cursor.start r).run shown (approach shown skip)).2 = ⟨r, skip.toNat, false⟩ := by
  have hzero : Width.byte.alignUp (Cursor.start r).offset = 0 := Width.alignUp_zero _
  have hselect : ((Cursor.start r).step shown (.select shown)).2 = .start r := rfl
  have halign : ((Cursor.start r).step shown (.align 0)).2 = ⟨r, 0, false⟩ := by
    have hbounded : (Cursor.start r).Bounded := ⟨Nat.zero_le _, hr⟩
    have hadvances : (Cursor.start r).Advances shown (.align 0) _ _ :=
      .align 0 .byte rfl (by rw [hzero]; exact Nat.zero_le _)
        (by rw [hzero]; exact r.base.toNat_lt_size)
    rw [Cursor.step_of_advances hbounded hadvances, hzero]
    rfl
  have hreserve : ((⟨r, 0, false⟩ : Cursor).step shown (.reserve skip)).2 =
      ⟨r, skip.toNat, false⟩ := by
    have hbounded : (⟨r, 0, false⟩ : Cursor).Bounded := ⟨Nat.zero_le _, hr⟩
    rw [Cursor.step_of_advances hbounded (.reserve skip (by simpa using h))]
    simp only [Nat.zero_add]
  simp only [approach, Cursor.run, hselect, halign, hreserve]

theorem areaCursor_approach {s : Segment} {skip : UInt32}
    (h : skip.toNat ≤ (m.region s).capacity) :
    ((fresh m).run (approach s skip)).2.areaCursor (.segment s) =
      ⟨m.region s, skip.toNat, false⟩ := by
  have hproject : project (.segment s) .text (approach s skip) (approach s skip) =
      approach s skip := by
    simp [approach, project, Operation.target, Operation.selected]
  have hcurrent : (fresh m).current = .text := rfl
  have hrun := congrArg Prod.snd (project_run (fresh m) (.segment s) (approach s skip))
  rw [hcurrent, hproject, areaCursor_fresh] at hrun
  exact hrun.trans (run_approach (m.region_end_le s) h)

/-- Some run emits a word anywhere in a region. -/
theorem exists_emitted {s : Segment} {address : UInt32}
    (h : ∀ i < Width.word.bytes, (m.region s).Holds (address.toNat + i)) :
    ∃ operations, ((fresh m).run operations).2.current = s ∧
      ⟨s, address, 4⟩ ∈ answered (((fresh m).run operations).2.step (.emit .word 1)).1 := by
  obtain ⟨hbase, -⟩ := h 0 (by decide)
  obtain ⟨-, hlast⟩ := h 3 (by decide)
  have haddress := address.toNat_lt_size
  obtain ⟨skip, hskip⟩ : ∃ skip : UInt32, skip.toNat = address.toNat - (m.region s).base.toNat :=
    ⟨.ofNat _, UInt32.toNat_ofNat_of_lt' (by omega)⟩
  let c : Cursor := ⟨m.region s, skip.toNat, false⟩
  have hc : c.Bounded := ⟨by simp only [c]; omega, m.region_end_le s⟩
  have hstart : c.itemStart .word = skip.toNat := c.itemStart_of_autoAlign_eq_false rfl .word
  have hemit : c.Advances s (.emit .word 1) _ _ := .emit .word 1 (by
    rw [hstart]
    simp only [Width.bytes, c]
    omega)
  have hcurrent : ((fresh m).run (approach s skip)).2.current = s := by
    simp only [approach, run, current_step, Operation.selected]
  have htarget : (Operation.emit .word 1).target ((fresh m).run (approach s skip)).2.current =
      .segment s := congrArg Area.segment hcurrent
  refine ⟨approach s skip, hcurrent, ?_⟩
  rw [answer_step htarget, areaCursor_approach (by omega), Area.shown,
    Cursor.step_of_advances hc hemit, hstart]
  have hword : c.addressOf skip.toNat = address := by
    have hexact : (m.region s).base.toNat + skip.toNat = address.toNat := by omega
    rw [Cursor.addressOf, hexact, UInt32.ofNat_toNat]
  simp [answered, items, hword, Width.bytes]

/-- Whatever the map, a word at a word boundary may be fetched exactly if all of it lies in a text
region. Words that a run emits there into a text segment may be fetched under its layout, whatever
else the run does, and every word that may be fetched is emitted by some run. -/
theorem instruction_words_agree (m : MemoryMap) :
    (∀ address : UInt32, Width.word.IsAligned address.toNat →
      ((∃ result, (Validator.ofMap m).validateFetch address = .ok result) ↔
        Covered [m.region .text, m.region .kernelText] address.toNat .word)) ∧
    (∀ (earlier later : List Operation) (count : Nat),
      let a := ((fresh m).run earlier).2
      let operation := Operation.emit .word count
      a.current.isText = true → ∀ x ∈ answered (a.step operation).1,
        Width.word.IsAligned x.address.toNat →
          ((fresh m).run (earlier ++ operation :: later)).2.finish.validator.validateFetch
            x.address = .ok x.address) ∧
    ∀ address result, (Validator.ofMap m).validateFetch address = .ok result →
      ∃ operations, ((fresh m).run operations).2.current.isText = true ∧
        ∃ x ∈ answered (((fresh m).run operations).2.step (.emit .word 1)).1,
          x.address = address := by
  refine ⟨fun address haligned => ⟨?_, fun h => ⟨_, MemoryMap.validateFetch_of_covered haligned h⟩⟩,
    ?_, ?_⟩
  · rintro ⟨result, h⟩
    exact MemoryMap.validateFetch_covered h
  · intro earlier later count a operation htext x hx haligned
    rw [validator_finish_run]
    exact validateFetch_emitted htext hx haligned
  · intro address result h
    obtain ⟨_, hregion, hbytes⟩ := MemoryMap.validateFetch_covered h
    obtain ⟨s, hs, rfl⟩ := MemoryMap.mem_fetchRegions_iff.mp hregion
    obtain ⟨operations, hcurrent, hx⟩ := exists_emitted hbytes
    exact ⟨operations, by rw [hcurrent, hs], _, hx, rfl⟩

/-- Text between addresses that are both within words, and kernel text up to the top: words that are
emitted off the offsets they would be aligned to, the last word before the limit and the last of the
address space, and the word that the base cuts off. -/
theorem instruction_words_agree_within_words :
    let m : MemoryMap :=
      { MemoryMap.standard with
        text := ⟨0x00400002, 0x0040000a⟩, ktext := ⟨0xfffffff8, 0xffffffff⟩ }
    let earlier : List Operation := [.align 0, .reserve 2]
    let later : List Operation := [.select .kernelText, .emit .double 1]
    let a := ((fresh m).run earlier).2
    let result := (fresh m).run (earlier ++ .emit .word 2 :: later)
    (Width.word.IsAligned (0x00400008 : UInt32).toNat ∧ a.current.isText = true ∧
      ⟨.text, 0x00400008, 4⟩ ∈ answered (a.step (.emit .word 2)).1) ∧
    result.2.finish.validator.validateFetch 0x00400008 = .ok 0x00400008 ∧
    (∃ result, (Validator.ofMap m).validateFetch 0xfffffffc = .ok result) ∧
    ¬ ∃ result, (Validator.ofMap m).validateFetch 0x00400000 = .ok result := by
  intro m earlier later
  have htext : ((fresh m).run earlier).2.current.isText = true := by decide +kernel
  have hx : ⟨.text, 0x00400008, 4⟩ ∈
      answered (((fresh m).run earlier).2.step (.emit .word 2)).1 := by
    decide +kernel
  obtain ⟨hfetch, hemitted, -⟩ := instruction_words_agree m
  have hallowed := hemitted earlier later 2 htext _ hx (by decide)
  refine ⟨⟨by decide, htext, hx⟩, hallowed, ?_, ?_⟩
  · exact (hfetch 0xfffffffc (by decide)).mpr (by decide)
  · rw [hfetch 0x00400000 (by decide)]
    decide

end Allocator

end MipsMemory
