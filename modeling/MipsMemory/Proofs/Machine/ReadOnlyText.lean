import MipsMemory.Proofs.Machine.Instructions

/-!
Program text under runs of a machine. Memory changes only by images and by stores the map allows.
Main statement: in a map without self-modifying code whose text is kept apart from the data spans,
no run of operations other than images changes what is fetched from any address. Apart means more
than that no address is in both: a data span is open to stores as far as the last item that starts
in it, and user data takes in whatever lies between the externs and static data.
-/

namespace MipsMemory

namespace Machine

/-- What an operation can leave in memory. -/
inductive Written (mem : Memory) : Operation → Memory → Prop
  | same (operation : Operation) : Written mem operation mem
  | store (operation : Operation) {address : UInt32} {width : Width} (value : UInt64)
      (allowed : mem.map.validate address .store width = .ok address) :
      Written mem operation (mem.place address (Memory.lowBytes width.bytes value))
  | image (base : UInt32) (bytes : List UInt8) :
      Written mem (.image base bytes) (mem.place base bytes)

/-! ## Operations -/

theorem perform_written {m m' : Machine} {operation : Operation} {outcome : Outcome}
    (h : m.perform operation = .ok (outcome, m')) : Written m.memory operation m'.memory := by
  cases operation with
  | register operation =>
    obtain ⟨⟨_, registers⟩, -, h⟩ := map_eq_ok_iff.mp h
    cases h
    exact .same _
  | load rt base offset width =>
    obtain ⟨⟨_, _⟩, hload, h⟩ := map_eq_ok_iff.mp h
    cases h
    obtain ⟨_, _, -, -, -, rfl⟩ := load_eq_ok_iff.mp hload
    exact .same _
  | store rt base offset width =>
    obtain ⟨⟨_, _⟩, hstore, h⟩ := map_eq_ok_iff.mp h
    cases h
    obtain ⟨value, -, -, hallowed, rfl⟩ := store_eq_ok_iff.mp hstore
    exact .store _ value.toUInt64 hallowed
  | storeMemory address width value =>
    obtain ⟨memory, hstore, h⟩ := map_eq_ok_iff.mp h
    cases h
    obtain ⟨hallowed, rfl⟩ := Memory.store_eq_ok_iff.mp (mapError_eq_ok_iff.mp hstore)
    exact .store _ value hallowed
  | effectiveAddress | probe | loadMemory | fetch =>
    obtain ⟨_, -, h⟩ := map_eq_ok_iff.mp h
    cases h
    exact .same _
  | image base bytes =>
    cases h
    exact .image base bytes

/-- A failed operation leaves memory alone, so one step does no more than an operation can. -/
theorem step_written (m : Machine) (operation : Operation) :
    Written m.memory operation (m.step operation).2.memory := by
  unfold step
  split
  · rename_i h
    exact perform_written h
  · exact .same _

namespace Written

variable {mem mem' : Memory} {operation : Operation}

theorem map_eq (h : Written mem operation mem') : mem'.map = mem.map := by
  cases h with
  | same => rfl
  | store => exact Memory.map_place ..
  | image => exact Memory.map_place ..

/-- Other than by an image, a byte changes only within the reach of stores. -/
theorem byte_eq (h : Written mem operation mem')
    (hoperation : ∀ base bytes, operation ≠ .image base bytes) {x : UInt32}
    (hx : ¬ mem.map.Storable x.toNat) : mem'.byte x = mem.byte x := by
  cases h with
  | same => rfl
  | store _ value allowed => exact Memory.byte_place_of_not_storable allowed value hx
  | image base bytes => exact absurd rfl (hoperation base bytes)

end Written

/-! ## Runs -/

theorem map_run (m : Machine) (operations : List Operation) :
    (m.run operations).2.memory.map = m.memory.map := by
  induction operations generalizing m with
  | nil => rfl
  | cons operation operations ih => exact (ih _).trans (m.step_written operation).map_eq

theorem byte_run {m : Machine} {operations : List Operation}
    (himage : ∀ base bytes, .image base bytes ∉ operations) {x : UInt32}
    (hx : ¬ m.memory.map.Storable x.toNat) :
    (m.run operations).2.memory.byte x = m.memory.byte x := by
  induction operations generalizing m with
  | nil => rfl
  | cons operation operations ih =>
    have hwritten := m.step_written operation
    have hhead : ∀ base bytes, operation ≠ .image base bytes := by
      rintro base bytes rfl
      exact himage base bytes List.mem_cons_self
    have htail : ∀ base bytes, .image base bytes ∉ operations := fun base bytes h =>
      himage base bytes (List.mem_cons_of_mem _ h)
    -- the step keeps the map, and with it what is out of reach
    have hx' : ¬ (m.step operation).2.memory.map.Storable x.toNat := by
      rwa [hwritten.map_eq]
    exact (ih htail hx').trans (hwritten.byte_eq hhead hx)

end Machine

/-! ## Text kept apart -/

/-- No byte of program text belongs to an aligned item that starts in a data span. -/
def MemoryMap.TextApart (m : MemoryMap) : Prop :=
  ∀ region ∈ m.fetchRegions, ∀ byte, region.Holds byte → ∀ span ∈ m.dataSpans,
    ¬ span.Reaches byte

namespace MemoryMap

theorem TextApart.not_storable {m : MemoryMap} (h : m.TextApart) (hself : m.selfModifying = false)
    {region : Region} (hregion : region ∈ m.fetchRegions) {byte : Nat}
    (hbyte : region.Holds byte) : ¬ m.Storable byte := by
  rintro ⟨span, hspan, hreaches⟩
  simp only [accessSpans, hself] at hspan
  exact h region hregion byte hbyte span hspan hreaches

/-- Text is apart if it ends before a data span starts, or starts after the last doubleword that
starts in it. -/
theorem textApart_of_separate {m : MemoryMap}
    (h : ∀ region ∈ m.fetchRegions, ∀ span ∈ m.dataSpans,
      region.base.toNat + region.capacity ≤ span.first.toNat ∨
        Width.double.alignDown span.last.toNat + Width.double.bytes ≤ region.base.toNat) :
    m.TextApart := by
  intro region hregion byte hbyte span hspan hreaches
  obtain ⟨hbase, hend⟩ := hbyte
  have hfirst := hreaches.first_le
  have hlast := hreaches.lt
  have hseparate := h region hregion span hspan
  omega

theorem textApart_of_mem_presets {m : MemoryMap} (h : m ∈ presets) : m.TextApart := by
  simp only [presets, List.mem_cons, List.not_mem_nil, or_false] at h
  rcases h with rfl | rfl | rfl <;> exact textApart_of_separate (by decide)

/-- Text in the gap between the externs and static data. -/
def textInGap : MemoryMap :=
  { standard with text := ⟨0x10010000, 0x1001fffc⟩, data := ⟨0x10020000, 0x7fffffff⟩ }

end MemoryMap

namespace Machine

open MemoryMap

/-- Without self-modifying code and images, no run changes what is fetched, wherever from. -/
theorem fetch_run {m : Machine} (hself : m.memory.map.selfModifying = false)
    (hapart : m.memory.map.TextApart) {operations : List Operation}
    (himage : ∀ base bytes, .image base bytes ∉ operations) (address : UInt32) :
    (m.run operations).2.memory.fetch address = m.memory.fetch address := by
  refine Memory.fetch_congr (map_run m operations) ?_ address
  intro region hregion x hx
  exact byte_run himage (hapart.not_storable hself hregion hx)

/-- With a program in place, stores to it are refused and stores to data go elsewhere. -/
theorem fetch_run_standard :
    let m := ((fresh standard).run [.image 0x00400000 [0x0d, 0, 0, 0]]).2
    let operations : List Operation :=
      [.storeMemory 0x00400000 .word 1, .register (.write 8 0x10010000), .store 8 8 4 .double,
        .register (.reset compactTextAtZero)]
    (m.run operations).2.memory.fetch 0x00400000 = m.memory.fetch 0x00400000 :=
  fetch_run rfl (textApart_of_mem_presets (by decide)) (by simp) 0x00400000

/-- Text may be disjoint from externs, static data, kernel data and devices and still lie between
the first two: then it is part of user data, and stores change it. -/
theorem store_into_text_in_gap :
    let m := textInGap
    let data := m.externRegion :: [m.data, m.kdata, m.mmio].map Span.region
    let after := ((fresh m).run [.storeMemory 0x10010000 .word 1]).2
    (m.defect? = none ∧ m.selfModifying = false ∧
      ∀ r ∈ m.fetchRegions, ∀ s ∈ data,
        r.base.toNat + r.capacity ≤ s.base.toNat ∨ s.base.toNat + s.capacity ≤ r.base.toNat) ∧
    after.memory.fetch 0x10010000 ≠ (fresh m).memory.fetch 0x10010000 := by
  refine ⟨⟨rfl, rfl, by decide⟩, ?_⟩
  -- the bytes of a store are compared, since the byte store itself does not reduce
  have hrun : ((fresh textInGap).run [.storeMemory 0x10010000 .word 1]).2.memory =
      (Memory.fresh textInGap).place 0x10010000 [1, 0, 0, 0] := rfl
  have hstart : (fresh textInGap).memory = .fresh textInGap := rfl
  have hfetch (mem : Memory) (hmap : mem.map = textInGap) : mem.fetch 0x10010000 =
      .ok (UInt64.ofNat (Memory.littleEndian (mem.bytesFrom 0x10010000 4))).toUInt32 := by
    rw [Memory.fetch, Memory.validator, hmap]
    rfl
  have hbefore : (Memory.fresh textInGap).bytesFrom 0x10010000 4 = [0, 0, 0, 0] := by
    simp [Memory.bytesFrom, List.range_succ]
  have hafter : ((Memory.fresh textInGap).place 0x10010000 [1, 0, 0, 0]).bytesFrom 0x10010000 4 =
      [1, 0, 0, 0] := by
    simp [Memory.bytesFrom, List.range_succ, Memory.place, Memory.byte_setByte]
  rw [hrun, hstart, hfetch _ (Memory.map_place ..), hfetch _ rfl, hbefore, hafter, ne_eq,
    Except.ok.injEq]
  decide

end Machine

end MipsMemory
