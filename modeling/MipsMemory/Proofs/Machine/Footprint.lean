import MipsMemory.Proofs.Machine.ReadOnlyText
import MipsMemory.Proofs.Memory.FlatArray

/-!
Which bytes runs of a machine can change, images apart. Main statement: those that belong to an
aligned item that starts in a span open to stores, and no others; so a changed byte lies no further
than the end of the doubleword at the last address of such a span, whatever order its ends come in
and whatever they are aligned to. In the built-in maps none of these bytes is program text.
-/

namespace MipsMemory

/-! ## Spans and the doublewords at their ends -/

/-- What can be reached from a span lies between its first address and the end of the doubleword at
its last. -/
theorem Span.Reaches.le_or_seven {s : Span} {x : UInt32} (h : s.Reaches x.toNat) :
    s.first ≤ x ∧ x ≤ s.last ||| 7 := by
  have hlast : (s.last ||| 7).toNat = Width.double.alignDown s.last.toNat + 7 := by
    rw [UInt32.toNat_or]
    exact Width.double.or_lowMask _
  have hlt := h.lt
  rw [UInt32.le_iff_toNat_le, UInt32.le_iff_toNat_le, hlast]
  simp only [Width.bytes] at hlt
  exact ⟨h.first_le, by omega⟩

theorem MemoryMap.selfModifying_of_mem_presets {m : MemoryMap} (h : m ∈ presets) :
    m.selfModifying = false := by
  simp only [presets, List.mem_cons, List.not_mem_nil, or_false] at h
  rcases h with rfl | rfl | rfl <;> rfl

/-! ## Bytes that can be changed -/

namespace Memory

/-- Every byte within reach has a store that changes it. -/
theorem exists_store_of_storable {mem : Memory} {x : UInt32} (h : mem.map.Storable x.toNat) :
    ∃ address width value mem', mem.store address width value = .ok mem' ∧
      mem'.byte x ≠ mem.byte x := by
  obtain ⟨span, hspan, width, hfirst, hlast⟩ := h
  have hle := width.alignDown_le x.toNat
  have hlt := width.lt_alignDown_add x.toNat
  obtain ⟨start, hstart⟩ : ∃ start : UInt32, start.toNat = width.alignDown x.toNat :=
    ⟨.ofNat _, UInt32.toNat_ofNat_of_lt' (Nat.lt_of_le_of_lt hle x.toNat_lt_size)⟩
  have haligned : width.IsAligned start.toNat := by
    rw [hstart]
    exact width.isAligned_alignDown _
  obtain ⟨i, hi, hx⟩ : ∃ i < width.bytes, start + UInt32.ofNat i = x := by
    refine ⟨x.toNat - start.toNat, by omega, ?_⟩
    rw [← UInt32.toNat_inj, haligned.toNat_add (by omega)]
    omega
  have hallowed : mem.map.validate start .store width = .ok start :=
    checkAccess_eq_ok_iff.mpr ⟨rfl, haligned, span, hspan, by
      rw [← hstart] at hfirst hlast
      exact ⟨UInt32.le_iff_toNat_le.mpr hfirst, UInt32.le_iff_toNat_le.mpr hlast⟩⟩
  -- another byte than the one there, moved to the place of `x` in the item
  let b := ((mem.byte x).toNat + 1) % 256
  let value := UInt64.ofNat (b * 256 ^ i)
  have hvalue : value.toNat = b * 256 ^ i := by
    have hb : b ≤ 255 := Nat.le_of_lt_succ (Nat.mod_lt _ (by decide))
    have hpow : 256 ^ i ≤ 256 ^ 7 :=
      Nat.pow_le_pow_right (by decide) (by have := width.bytes_le; omega)
    exact UInt64.toNat_ofNat_of_lt'
      (Nat.lt_of_le_of_lt (Nat.mul_le_mul hb hpow) (by decide))
  have hset := (mem.stored_place haligned value).set i hi
  rw [hvalue, Nat.mul_div_cancel _ (Nat.pow_pos (by decide)), hx] at hset
  refine ⟨start, width, value, _, store_eq_ok_iff.mpr ⟨hallowed, rfl⟩, fun he => ?_⟩
  rw [he] at hset
  simp only [b] at hset
  omega

end Memory

namespace Machine

/-- The bytes that runs without images can change are those within the reach of stores. -/
theorem exists_run_changes_iff (m : Machine) (x : UInt32) :
    (∃ operations, (∀ base bytes, .image base bytes ∉ operations) ∧
        (m.run operations).2.memory.byte x ≠ m.memory.byte x) ↔
      m.memory.map.Storable x.toNat := by
  constructor
  · rintro ⟨operations, himage, hchanged⟩
    by_contra hx
    exact hchanged (byte_run himage hx)
  · intro hx
    obtain ⟨address, width, value, mem, hstore, hchanged⟩ := Memory.exists_store_of_storable hx
    have hrun : (m.run [.storeMemory address width value]).2.memory = mem := by
      simp [run, step, perform, checked, hstore, Except.map, mapError_ok]
    exact ⟨[.storeMemory address width value], by simp, hrun ▸ hchanged⟩

/-- A run without images changes only bytes from the first address of a span open to stores through
the end of the doubleword at its last, and in the built-in maps no instruction; and every byte of an
aligned item that starts in such a span can be changed. -/
theorem write_footprint (m : Machine) :
    (∀ operations, (∀ base bytes, .image base bytes ∉ operations) →
      (∀ x, (m.run operations).2.memory.byte x ≠ m.memory.byte x →
        ∃ span ∈ m.memory.map.accessSpans .store, span.first ≤ x ∧ x ≤ span.last ||| 7) ∧
      (m.memory.map ∈ MemoryMap.presets → ∀ address,
        (m.run operations).2.memory.fetch address = m.memory.fetch address)) ∧
    ∀ x : UInt32, m.memory.map.Storable x.toNat →
      ∃ operations, (∀ base bytes, .image base bytes ∉ operations) ∧
        (m.run operations).2.memory.byte x ≠ m.memory.byte x := by
  refine ⟨fun operations himage => ⟨fun x hchanged => ?_, fun hpreset address => ?_⟩,
    fun x hx => (m.exists_run_changes_iff x).mpr hx⟩
  · obtain ⟨span, hspan, hreaches⟩ := (m.exists_run_changes_iff x).mp ⟨operations, himage, hchanged⟩
    exact ⟨span, hspan, hreaches.le_or_seven⟩
  · have hself := MemoryMap.selfModifying_of_mem_presets hpreset
    have hapart := MemoryMap.textApart_of_mem_presets hpreset
    refine Memory.fetch_congr (m.map_run operations) ?_ address
    intro region hregion x hx
    exact byte_run himage (hapart.not_storable hself hregion hx)

/-- A doubleword at the end of the devices, a store to program text that is refused, and one
through registers that is not. -/
theorem write_footprint_compact :
    let m := fresh .compactDataAtZero
    let operations : List Operation := [.storeMemory 0x7ff8 .double 0x0807060504030201,
      .storeMemory 0x3000 .word 1, .register (.write 8 0x01020304), .store 8 29 0 .half]
    (∀ x, (m.run operations).2.memory.byte x ≠ m.memory.byte x →
      ∃ span ∈ m.memory.map.accessSpans .store, span.first ≤ x ∧ x ≤ span.last ||| 7) ∧
    (∀ address, (m.run operations).2.memory.fetch address = m.memory.fetch address) ∧
    ∃ operations, (∀ base bytes, .image base bytes ∉ operations) ∧
      (m.run operations).2.memory.byte 0x7fff ≠ m.memory.byte 0x7fff := by
  intro m operations
  obtain ⟨hbound, hreached⟩ := write_footprint m
  have himage : ∀ base bytes, .image base bytes ∉ operations := by simp [operations]
  refine ⟨(hbound operations himage).1, (hbound operations himage).2 (by decide), ?_⟩
  exact hreached 0x7fff ⟨MemoryMap.compactDataAtZero.mmio, by decide, .double, by decide⟩

end Machine

end MipsMemory
