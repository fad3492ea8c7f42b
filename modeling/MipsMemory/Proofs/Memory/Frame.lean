import MipsMemory.Memory
import MipsMemory.Proofs.Access.Extent
import MipsMemory.Proofs.Except

/-!
What a store leaves alone and what a fetch depends on. Main statements: a store changes only bytes
of aligned items that start in a span open to stores, and fetches agree in any two memories that
have the same map and the same bytes in its text regions.
-/

namespace MipsMemory

/-! ## Bytes within the reach of accesses -/

namespace Span

/-- Some aligned item that the byte belongs to starts in the span. -/
def Reaches (s : Span) (byte : Nat) : Prop :=
  ∃ width : Width,
    s.first.toNat ≤ width.alignDown byte ∧ width.alignDown byte ≤ s.last.toNat

variable {s : Span} {byte : Nat}

theorem Reaches.first_le (h : s.Reaches byte) : s.first.toNat ≤ byte := by
  obtain ⟨width, hfirst, -⟩ := h
  exact Nat.le_trans hfirst (width.alignDown_le byte)

/-- Reach ends with the last doubleword that a byte of the span belongs to. -/
theorem Reaches.lt (h : s.Reaches byte) :
    byte < Width.double.alignDown s.last.toNat + Width.double.bytes := by
  obtain ⟨width, -, hlast⟩ := h
  refine Nat.lt_of_not_le fun hbyte => ?_
  -- the next doubleword is a multiple of every width, so nothing after it rounds down past it
  have hnext := (Width.double.isAligned_alignDown s.last.toNat).next
  have hstart := hnext.le_alignDown hbyte
  have hdouble := width.alignDown_double_le byte
  have hspan := Width.double.lt_alignDown_add s.last.toNat
  omega

theorem reaches_of_contains {address : UInt32} {width : Width} (h : s.Contains address)
    (haligned : width.IsAligned address.toNat) {i : Nat} (hi : i < width.bytes) :
    s.Reaches (address.toNat + i) := by
  refine ⟨width, ?_⟩
  rw [haligned.alignDown_add hi]
  exact h

end Span

/-- A store can change the byte. -/
def MemoryMap.Storable (m : MemoryMap) (byte : Nat) : Prop :=
  ∃ span ∈ m.accessSpans .store, span.Reaches byte

/-! ## Accesses -/

/-- An allowed access goes on with its own address. -/
theorem checkAccess_map_eq_ok_iff {α : Type} {spans : List Span} {address : UInt32}
    {kind : AccessKind} {width : Width} {f : UInt32 → α} {y : α} :
    (checkAccess spans address kind width).map f = .ok y ↔
      checkAccess spans address kind width = .ok address ∧ y = f address := by
  rw [map_eq_ok_iff]
  constructor
  · rintro ⟨result, h, rfl⟩
    obtain ⟨rfl, -⟩ := checkAccess_eq_ok_iff.mp h
    exact ⟨h, rfl⟩
  · rintro ⟨h, rfl⟩
    exact ⟨address, h, rfl⟩

namespace Memory

@[simp]
theorem length_lowBytes (count : Nat) (value : UInt64) : (lowBytes count value).length = count := by
  simp [lowBytes]

theorem store_eq_ok_iff {mem mem' : Memory} {address : UInt32} {width : Width} {value : UInt64} :
    mem.store address width value = .ok mem' ↔
      mem.map.validate address .store width = .ok address ∧
        mem' = mem.place address (lowBytes width.bytes value) :=
  checkAccess_map_eq_ok_iff

theorem load_eq_ok_iff {mem : Memory} {address : UInt32} {width : Width} {raw : UInt64} :
    mem.load address width = .ok raw ↔
      mem.map.validate address .load width = .ok address ∧ raw = mem.peek address width :=
  checkAccess_map_eq_ok_iff

/-- A store changes no byte out of reach. -/
theorem byte_place_of_not_storable {mem : Memory} {address result : UInt32} {width : Width}
    (h : mem.map.validate address .store width = .ok result) (value : UInt64) {x : UInt32}
    (hx : ¬ mem.map.Storable x.toNat) :
    (mem.place address (lowBytes width.bytes value)).byte x = mem.byte x := by
  obtain ⟨-, haligned, span, hspan, hcontains⟩ := checkAccess_eq_ok_iff.mp h
  apply byte_place_of_forall_ne
  intro i hi
  rw [length_lowBytes] at hi
  rintro rfl
  rw [haligned.toNat_add hi] at hx
  exact hx ⟨span, hspan, Span.reaches_of_contains hcontains haligned hi⟩

/-- Fetches depend on the map and the bytes of its text regions only. -/
theorem fetch_congr {mem mem' : Memory} (hmap : mem'.map = mem.map)
    (hbyte : ∀ region ∈ mem.map.fetchRegions, ∀ x : UInt32, region.Holds x.toNat →
      mem'.byte x = mem.byte x) (address : UInt32) :
    mem'.fetch address = mem.fetch address := by
  rw [fetch, fetch, validateFetch_validator, validateFetch_validator, hmap]
  cases h : mem.map.validateFetch address with
  | error e => rfl
  | ok result =>
    obtain ⟨rfl, haligned, -⟩ := checkAccess_eq_ok_iff.mp h
    obtain ⟨region, hregion, hholds⟩ := MemoryMap.validateFetch_covered h
    -- an allowed fetch is aligned, so that its addresses do not wrap around
    have hbytes : mem'.bytesFrom result Width.word.bytes = mem.bytesFrom result Width.word.bytes := by
      refine List.map_congr_left fun i hi => hbyte region hregion _ ?_
      have hi := List.mem_range.mp hi
      rw [haligned.toNat_add hi]
      exact hholds i hi
    simp only [Except.map, peek, hbytes]

end Memory

end MipsMemory
