import MipsMemory.Proofs.Access.Extent
import MipsMemory.Proofs.Access.Inclusion
import MipsMemory.Proofs.Allocator.Placement

/-!
Allocations against the limits of the map. An allocator is bounded by capacities, an access by the
spans it may start in, and the two are worked out apart from each other. Main statements: the bytes
of static data and the externs may all be accessed exactly if whatever of them lies above the limit
of user data lies in another span; in maps whose areas fit their spans so may the items of kernel
data, each at its own width; and kernel data stays below its limit exactly if that ends a word.
-/

namespace MipsMemory

/-! ## Bytes open to accesses -/

namespace MemoryMap

/-- Stores may start at any byte of an area. -/
def AreaOpen (m : MemoryMap) (area : Area) : Prop :=
  ∀ address : UInt32, (m.areaRegion area).Holds address.toNat →
    ∃ span ∈ m.accessSpans .store, span.Contains address

end MemoryMap

namespace Allocation

/-- Every byte of an allocation may be loaded and stored by itself. -/
def Accessible (x : Allocation) (v : Validator) : Prop :=
  ∀ i < x.size.toNat, ∀ kind,
    v.validate (x.address + .ofNat i) kind .byte = .ok (x.address + .ofNat i)

/-- The addresses of an allocation's bytes do not wrap around if its last byte is an address. -/
theorem toNat_address_add {x : Allocation} (h : x.finish ≤ UInt32.size) {i : Nat}
    (hi : i < x.size.toNat) : (x.address + .ofNat i).toNat = x.address.toNat + i := by
  rw [finish] at h
  have hvalue : (UInt32.ofNat i).toNat = i := UInt32.toNat_ofNat_of_lt' (by omega)
  rw [UInt32.toNat_add, hvalue]
  exact Nat.mod_eq_of_lt (show x.address.toNat + i < UInt32.size by omega)

/-- Accesses to single bytes are aligned, so it is for the spans to decide. -/
theorem accessible_iff {x : Allocation} (h : x.finish ≤ UInt32.size) {m : MemoryMap} :
    x.Accessible (.ofMap m) ↔ ∀ address : UInt32, x.region.Holds address.toNat →
      ∃ span ∈ m.accessSpans .store, span.Contains address := by
  simp only [Accessible, Validator.validate_ofMap]
  constructor
  · intro haccess address hholds
    obtain ⟨hlow, hhigh⟩ := holds_region.mp hholds
    rw [finish] at hhigh
    have hi : address.toNat - x.address.toNat < x.size.toNat := by omega
    have haddress : x.address + .ofNat (address.toNat - x.address.toNat) = address := by
      rw [← UInt32.toNat_inj, toNat_address_add h hi]
      omega
    have hok := haccess _ hi .store
    rw [haddress] at hok
    exact (checkAccess_eq_ok_iff.mp hok).2.2
  · intro hopen i hi kind
    have hholds : x.region.Holds (x.address + .ofNat i).toNat := by
      rw [toNat_address_add h hi]
      exact ⟨Nat.le_add_right _ _, Nat.add_lt_add_left hi _⟩
    obtain ⟨span, hspan, hcontains⟩ := hopen _ hholds
    exact checkAccess_eq_ok_iff.mpr
      ⟨rfl, Nat.mod_one _, span, m.storeSpans_subset kind hspan, hcontains⟩

end Allocation

namespace Allocator

theorem finish_le_of_mem_placed {m : MemoryMap} {operations : List Operation} {area : Area}
    {x : Allocation} (hx : x ∈ placed area operations ((fresh m).run operations).1) :
    x.finish ≤ UInt32.size := by
  by_cases hsize : x.size = 0
  · rw [Allocation.finish, hsize]
    exact Nat.le_of_lt x.address.toNat_lt_size
  · obtain ⟨filled, hfilled, -⟩ := (filling_run m operations area).filled
    have hwithin := hfilled.within x (mem_occupied.mpr ⟨hx, hsize⟩)
    exact Nat.le_trans hwithin (m.areaRegion_end_le area)

/-- What holds of every byte that runs place in an area is what holds of its region. -/
theorem forall_placed_iff {m : MemoryMap} {area : Area} {P : Nat → Prop} :
    (∀ operations, ∀ x ∈ placed area operations ((fresh m).run operations).1,
      ∀ byte, x.region.Holds byte → P byte) ↔ ∀ byte, (m.areaRegion area).Holds byte → P byte := by
  constructor
  · intro h byte hbyte
    obtain ⟨operations, x, hx, hholds⟩ := exists_placed hbyte
    exact h operations x hx byte hholds
  · intro h operations x hx byte hbyte
    exact h byte (holds_of_mem_placed hx hbyte)

/-- The bytes that runs place in an area may be accessed exactly if the area is open. -/
theorem accessible_placed_iff {m : MemoryMap} {area : Area} :
    (∀ operations, ∀ x ∈ placed area operations ((fresh m).run operations).1,
      x.Accessible (.ofMap m)) ↔
      m.AreaOpen area := by
  constructor
  · intro h address hholds
    obtain ⟨operations, x, hx, hbyte⟩ := exists_placed hholds
    exact (Allocation.accessible_iff (finish_le_of_mem_placed hx)).mp (h operations x hx) address
      hbyte
  · intro h operations x hx
    exact (Allocation.accessible_iff (finish_le_of_mem_placed hx)).mpr fun address hbyte =>
      h address (holds_of_mem_placed hx hbyte)

end Allocator

/-! ## Areas and spans -/

namespace MemoryMap

theorem staticDataEnd_le (m : MemoryMap) : m.staticDataEnd ≤ m.heapBase.toNat := by
  unfold staticDataEnd
  split
  · exact Nat.min_le_left _ _
  · exact Nat.le_refl _

/-- Static data and the externs are user data up to the limit of that. -/
theorem userData_contains {m : MemoryMap} {area : Area} (harea : area.shown = .data)
    {address : UInt32} (hholds : (m.areaRegion area).Holds address.toNat)
    (hlast : address ≤ m.data.last) : m.userData.Contains address := by
  have hfirst : m.userData.first ≤ (m.areaRegion area).base := by
    cases area with
    | segment s =>
      cases harea
      exact Std.min_le_right
    | externs => exact Std.min_le_left
  exact ⟨UInt32.le_trans hfirst (UInt32.le_iff_toNat_le.mpr hholds.1), hlast⟩

/-- Whatever of static data and the externs lies above the limit of user data lies in another span
open to stores. -/
def ExcessOpen (m : MemoryMap) : Prop :=
  ∀ area : Area, area.shown = .data → ∀ address : UInt32,
    (m.areaRegion area).Holds address.toNat → m.data.last < address →
      ∃ span ∈ m.accessSpans .store, span.Contains address

theorem excessOpen_iff {m : MemoryMap} :
    m.ExcessOpen ↔ ∀ area : Area, area.shown = .data → m.AreaOpen area := by
  constructor
  · intro h area harea address hholds
    by_cases hlast : address ≤ m.data.last
    · have huser : m.userData ∈ m.dataSpans := List.mem_cons_self
      exact ⟨_, m.dataSpans_subset .store huser, userData_contains harea hholds hlast⟩
    · exact h area harea address hholds (UInt32.not_le.mp hlast)
  · intro h area harea address hholds _
    exact h area harea address hholds

/-! ### Maps whose areas fit -/

/-- Data begins at doublewords, and all that is allocated there stays within the limits of user data
and kernel data. -/
structure Fitting (m : MemoryMap) : Prop where
  data_aligned : Width.double.IsAligned m.data.first.toNat
  kdata_aligned : Width.double.IsAligned m.kdata.first.toNat
  heap_le : m.heapBase.toNat ≤ m.data.last.toNat + 1
  externs_le : m.externs.last ≤ m.data.last
  kdata_last : m.kdata.last.toNat % 4 = 3

theorem fitting_of_mem_presets {m : MemoryMap} (h : m ∈ presets) : m.Fitting := by
  simp only [presets, List.mem_cons, List.not_mem_nil, or_false] at h
  rcases h with rfl | rfl | rfl <;> constructor <;> decide

namespace Fitting

variable {m : MemoryMap}

theorem le_data_last (h : m.Fitting) {area : Area} (harea : area.shown = .data)
    {address : UInt32} (hholds : (m.areaRegion area).Holds address.toNat) :
    address ≤ m.data.last := by
  have hheap := h.heap_le
  have hexterns := UInt32.le_iff_toNat_le.mp h.externs_le
  have hstatic := m.staticDataEnd_le
  rw [UInt32.le_iff_toNat_le]
  cases area with
  | segment s =>
    cases harea
    obtain ⟨-, hfinish⟩ := Region.holds_upTo.mp hholds
    omega
  | externs =>
    obtain ⟨-, hfinish⟩ := Region.holds_upTo.mp hholds
    omega

theorem kdata_contains (h : m.Fitting) {address : UInt32}
    (hholds : (m.areaRegion (.segment .kernelData)).Holds address.toNat) :
    m.kdata.Contains address := by
  obtain ⟨hfirst, hfinish⟩ := Region.holds_upTo.mp hholds
  have hlast := h.kdata_last
  rw [wordEnd_eq] at hfinish
  exact ⟨UInt32.le_iff_toNat_le.mpr hfirst, UInt32.le_iff_toNat_le.mpr (by omega)⟩

/-- Every area but those of text lies in a span of data. -/
theorem exists_span (h : m.Fitting) {area : Area} (harea : area.shown.isText = false)
    {address : UInt32} (hholds : (m.areaRegion area).Holds address.toNat) :
    ∃ span ∈ m.dataSpans, span.Contains address := by
  have huser (hshown : area.shown = .data) : ∃ span ∈ m.dataSpans, span.Contains address :=
    ⟨m.userData, List.mem_cons_self,
      userData_contains hshown hholds (h.le_data_last hshown hholds)⟩
  cases area with
  | externs => exact huser rfl
  | segment s =>
    cases s with
    | data => exact huser rfl
    | kernelData =>
      exact ⟨m.kdata, List.mem_cons_of_mem _ List.mem_cons_self, h.kdata_contains hholds⟩
    | text => cases harea
    | kernelText => cases harea

/-- They begin at multiples of every width. -/
theorem isAligned_base (h : m.Fitting) {s : Segment} (hs : s.isText = false) (width : Width) :
    width.IsAligned (m.region s).base.toNat := by
  cases s with
  | data => exact width.isAligned_of_double h.data_aligned
  | kernelData => exact width.isAligned_of_double h.kdata_aligned
  | text => cases hs
  | kernelText => cases hs

end Fitting

end MemoryMap

namespace Allocator

open MemoryMap

/-! ## What may be accessed -/

/-- The map of a finished layout is the one that its allocator began with. -/
theorem map_finish_run (m : MemoryMap) (operations : List Operation) :
    ((fresh m).run operations).2.finish.map = m :=
  (fresh m).map_run operations

/-- And so is its validator that of this map. -/
theorem validator_finish_run (m : MemoryMap) (operations : List Operation) :
    ((fresh m).run operations).2.finish.validator = .ofMap m := by
  rw [Layout.validator, map_finish_run]

/-- All bytes that any run places in static data or the externs may be loaded and stored under the
finished layout, exactly if what lies of them above the limit of user data is open to stores. -/
theorem static_data_accessible_iff (m : MemoryMap) :
    (∀ operations : List Operation,
      let result := (fresh m).run operations
      ∀ area : Area, area.shown = .data → ∀ x ∈ placed area operations result.1,
        x.Accessible result.2.finish.validator) ↔ m.ExcessOpen := by
  simp only [validator_finish_run]
  rw [excessOpen_iff]
  constructor
  · intro h area harea
    exact accessible_placed_iff.mp fun operations => h operations area harea
  · intro h operations area harea
    exact accessible_placed_iff.mpr (h area harea) operations

/-- A heap that begins above the limit of user data leaves static data there that may not be
accessed, although the map passes its check. -/
theorem store_above_user_data :
    let m : MemoryMap := { standard with data := ⟨0x10010000, 0x1001000f⟩ }
    let operations : List Operation := [.select .data, .reserve 0x11]
    let result := (fresh m).run operations
    m.defect? = none ∧
      ∃ x ∈ placed (.segment .data) operations result.1, ¬ x.Accessible result.2.finish.validator := by
  refine ⟨rfl, ⟨.data, 0x10010000, 0x11⟩, by decide +kernel, fun h => ?_⟩
  -- the byte after the limit
  cases h 0x10 (by decide) .store

theorem validate_emitted {m : MemoryMap} (hm : m.Fitting) {operations : List Operation}
    {width : Width} {count : Nat} {x : Allocation}
    (hdata : ((fresh m).run operations).2.current.isText = false)
    (hauto : ((fresh m).run operations).2.active.autoAlign = true)
    (hx : x ∈ answered (((fresh m).run operations).2.step (.emit width count)).1)
    (kind : AccessKind) : m.validate x.address kind width = .ok x.address := by
  have hholds := holds_of_mem_answered_emit hx width.bytes_pos
  obtain ⟨hregion, hbounded⟩ := active_run m operations
  generalize ((fresh m).run operations).2 = a at hdata hauto hx hholds hregion hbounded
  obtain ⟨offset, i, hoffset, hroom, rfl⟩ := mem_answered_emit hbounded hx
  have hpos := width.bytes_pos
  have hend := hbounded.end_le
  have haddress : (a.active.addressOf offset).toNat = (m.region a.current).base.toNat + offset := by
    rw [Cursor.toNat_addressOf (by omega), hregion]
  -- offsets are aligned, not addresses; the base is a multiple of every width
  have haligned : width.IsAligned (a.active.addressOf offset).toNat := by
    have hstart : width.IsAligned (a.active.itemStart width) := by
      rw [Cursor.itemStart, if_pos hauto]
      exact width.isAligned_alignUp hbounded.add_seven_le
    rw [haddress, hoffset]
    exact (hm.isAligned_base hdata width).add (hstart.add (Nat.mul_mod_left _ _))
  have hshown : (Area.segment a.current).shown.isText = false := hdata
  obtain ⟨span, hspan, hcontains⟩ := hm.exists_span hshown hholds
  exact checkAccess_eq_ok_iff.mpr ⟨rfl, haligned, span, m.dataSpans_subset kind hspan, hcontains⟩

/-- An item that is emitted into data while automatic alignment is on may be loaded and stored at
its own width under the finished layout, and every byte placed in an area of data by itself. -/
theorem items_allowed :
    (∀ m ∈ presets, m.Fitting) ∧ ∀ m : MemoryMap, m.Fitting →
      (∀ (earlier later : List Operation) (width : Width) (count : Nat),
        let a := ((fresh m).run earlier).2
        let operation := Operation.emit width count
        a.current.isText = false → a.active.autoAlign = true →
        ∀ x ∈ answered (a.step operation).1, ∀ kind,
          ((fresh m).run (earlier ++ operation :: later)).2.finish.validator.validate
            x.address kind width = .ok x.address) ∧
      ∀ operations : List Operation,
        let result := (fresh m).run operations
        ∀ area : Area, area.shown.isText = false → ∀ x ∈ placed area operations result.1,
          x.Accessible result.2.finish.validator := by
  refine ⟨fun m => fitting_of_mem_presets, fun m hm => ⟨?_, fun operations => ?_⟩⟩
  · intro earlier later width count a operation hdata hauto x hx kind
    rw [validator_finish_run, Validator.validate_ofMap]
    exact validate_emitted hm hdata hauto hx kind
  · intro result area harea x hx
    rw [validator_finish_run]
    refine accessible_placed_iff.mpr (fun address hholds => ?_) operations x hx
    obtain ⟨span, hspan, hcontains⟩ := hm.exists_span harea hholds
    exact ⟨span, m.dataSpans_subset .store hspan, hcontains⟩

/-- A doubleword in kernel data and an extern, both placed and then accessed. -/
theorem items_allowed_compact :
    let m := compactTextAtZero
    let earlier : List Operation := [.select .kernelData, .reserve 3]
    let later : List Operation := [.reserveExtern 4]
    let a := ((fresh m).run earlier).2
    let operation := Operation.emit .double 2
    let result := (fresh m).run (earlier ++ operation :: later)
    (m.Fitting ∧ a.current.isText = false ∧ a.active.autoAlign = true) ∧
      (⟨.kernelData, 0x5010, 8⟩ ∈ answered (a.step operation).1 ∧
        result.2.finish.validator.validate 0x5010 .store .double = .ok 0x5010) ∧
      ⟨.data, 0x1000, 4⟩ ∈ placed .externs (earlier ++ operation :: later) result.1 ∧
        Allocation.Accessible ⟨.data, 0x1000, 4⟩ result.2.finish.validator := by
  have hm : compactTextAtZero.Fitting := items_allowed.1 _ (by decide)
  obtain ⟨hemitted, hplaced⟩ := items_allowed.2 compactTextAtZero hm
  refine ⟨⟨hm, rfl, rfl⟩, ⟨by decide +kernel, ?_⟩, by decide +kernel, ?_⟩
  · exact hemitted [.select .kernelData, .reserve 3] [.reserveExtern 4] .double 2 rfl rfl
      ⟨.kernelData, 0x5010, 8⟩ (by decide +kernel) .store
  · exact hplaced _ .externs rfl _ (by decide +kernel)

/-! ## Kernel data -/

/-- In a map that passes its check no run places a byte of kernel data above the limit, exactly if
the limit is the last byte of a word; and where the device area begins above the limit, no run
places kernel data in it exactly if it begins after the word at the limit. -/
theorem kernel_data_below_limit_iff {m : MemoryMap} (h : m.defect? = none) :
    ((∀ operations, ∀ x ∈ placed (.segment .kernelData) operations ((fresh m).run operations).1,
        ∀ byte, x.region.Holds byte → byte ≤ m.kdata.last.toNat) ↔
      Width.word.IsAligned (m.kdata.last.toNat + 1)) ∧
    (m.kdata.last < m.mmio.first →
      ((∀ operations, ∀ x ∈ placed (.segment .kernelData) operations ((fresh m).run operations).1,
          x.region.Disjoint m.mmio.region) ↔ wordEnd m.kdata.last ≤ m.mmio.first.toNat)) := by
  have hkdata := UInt32.le_iff_toNat_le.mp <| first_le_last_of_defect?_eq_none h
    (show ("kdata", m.kdata) ∈ m.namedSpans by simp [namedSpans])
  have hmmio := UInt32.le_iff_toNat_le.mp <| first_le_last_of_defect?_eq_none h
    (show ("mmio", m.mmio) ∈ m.namedSpans by simp [namedSpans])
  have hregion (byte : Nat) : (m.areaRegion (.segment .kernelData)).Holds byte ↔
      m.kdata.first.toNat ≤ byte ∧ byte < wordEnd m.kdata.last := Region.holds_upTo
  have hend := wordEnd_eq m.kdata.last
  refine ⟨?_, fun habove => ?_⟩
  · rw [forall_placed_iff, Width.IsAligned]
    simp only [hregion, Width.bytes]
    constructor
    · intro hbelow
      -- the last byte of the word would otherwise be above the limit
      have hlast := hbelow (wordEnd m.kdata.last - 1) (by omega)
      omega
    · intro hlast byte hbyte
      omega
  · rw [UInt32.lt_iff_toNat_lt] at habove
    simp only [Region.Disjoint]
    rw [forall_placed_iff]
    simp only [hregion, Span.region, Region.holds_upTo]
    constructor
    · intro hapart
      by_contra hlt
      exact hapart m.mmio.first.toNat (by omega) (by omega)
    · intro hle byte hbyte
      omega

/-- Kernel data under the standard map, whose limit ends a word. -/
theorem kernel_data_below_limit_standard :
    let operations : List Operation := [.select .kernelData, .reserve 3, .emit .word 2]
    (standard.defect? = none ∧ standard.kdata.last < standard.mmio.first) ∧
      ∀ x ∈ placed (.segment .kernelData) operations ((fresh standard).run operations).1,
        (∀ byte, x.region.Holds byte → byte ≤ 0xfffeffff) ∧
          x.region.Disjoint standard.mmio.region := by
  have hmmio : standard.kdata.last < standard.mmio.first := by decide
  refine ⟨⟨rfl, hmmio⟩, fun x hx => ⟨?_, ?_⟩⟩
  · exact (kernel_data_below_limit_iff (m := standard) rfl).1.mpr (by decide) _ x hx
  · exact ((kernel_data_below_limit_iff (m := standard) rfl).2 hmmio).mpr (by decide) _ x hx

/-- A limit at the start of a word: kernel data takes up the rest of that word too, even where the
device area begins. -/
theorem kernel_data_in_devices :
    let m : MemoryMap :=
      { compactTextAtZero with kdata := ⟨0x5000, 0x7efc⟩, mmio := ⟨0x7efd, 0x7fff⟩ }
    let operations : List Operation := [.select .kernelData, .reserve 0x2f00]
    (m.defect? = none ∧ m.kdata.last < m.mmio.first) ∧
      ∃ x ∈ placed (.segment .kernelData) operations ((fresh m).run operations).1,
        ∃ byte, x.region.Holds byte ∧ m.kdata.last.toNat < byte ∧ m.mmio.region.Holds byte :=
  ⟨⟨rfl, by decide⟩, ⟨.kernelData, 0x5000, 0x2f00⟩, by decide +kernel, 0x7efd, by decide, by decide,
    by decide⟩

end Allocator

end MipsMemory
