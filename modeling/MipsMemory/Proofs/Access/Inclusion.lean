import MipsMemory.Proofs.Access.Refusal
import MipsMemory.Proofs.Alignment

/-!
Which allowed accesses allow others. An access depends on the spans it may start in and on its
alignment, so more spans or a smaller width never take away what was allowed. Main statement: in
every map, what may be stored may be loaded, what may be fetched may be loaded, and what may be
accessed at one width may be at every smaller one; self-modifying code adds stores to program text
and nothing else; and what is not allowed is refused with its own address and kind.
-/

namespace MipsMemory

/-- More spans and a smaller width allow no less, for either kind of access. -/
theorem checkAccess_mono {spans spans' : List Span} {address result : UInt32}
    {kind kind' : AccessKind} {width width' : Width} (hspans : spans ⊆ spans')
    (hwidth : width'.bytes ≤ width.bytes) (h : checkAccess spans address kind width = .ok result) :
    checkAccess spans' address kind' width' = .ok result := by
  obtain ⟨rfl, haligned, span, hspan, hcontains⟩ := checkAccess_eq_ok_iff.mp h
  exact checkAccess_eq_ok_iff.mpr
    ⟨rfl, haligned.of_bytes_le hwidth, span, hspans hspan, hcontains⟩

/-- A refusal repeats the access, and blames its alignment exactly if that is wrong. -/
structure AddressError.Explains (e : AddressError) (address : UInt32) (kind : AccessKind)
    (width : Width) : Prop where
  address_eq : e.address = address
  kind_eq : e.kind = kind
  unaligned_iff : e.fault = .unaligned width ↔ ¬ width.IsAligned address.toNat
  outOfRange_iff : e.fault = .outOfRange ↔ width.IsAligned address.toNat

theorem explains_of_checkAccess {spans : List Span} {address : UInt32} {kind : AccessKind}
    {width : Width} {e : AddressError} (h : checkAccess spans address kind width = .error e) :
    e.Explains address kind width := by
  rcases checkAccess_eq_error_iff.mp h with ⟨hn, rfl⟩ | ⟨haligned, -, rfl⟩
  · exact ⟨rfl, rfl, iff_of_true rfl hn, iff_of_false nofun hn⟩
  · exact ⟨rfl, rfl, iff_of_false nofun (not_not_intro haligned), iff_of_true rfl haligned⟩

namespace MemoryMap

variable {m : MemoryMap} {address result : UInt32} {kind : AccessKind} {width : Width}

/-! ## Spans -/

theorem dataSpans_subset (m : MemoryMap) (kind : AccessKind) :
    m.dataSpans ⊆ m.accessSpans kind := by
  cases kind with
  | load => exact List.subset_append_right _ _
  | store =>
    rw [accessSpans]
    split
    · exact List.subset_append_right _ _
    · exact List.Subset.refl _

/-- What may be stored may be loaded. -/
theorem storeSpans_subset (m : MemoryMap) (kind : AccessKind) :
    m.accessSpans .store ⊆ m.accessSpans kind := by
  cases kind with
  | load =>
    simp only [accessSpans]
    split
    · exact List.Subset.refl _
    · exact List.subset_append_right _ _
  | store => exact List.Subset.refl _

theorem fetchSpans_subset (m : MemoryMap) : m.fetchSpans ⊆ m.accessSpans .load :=
  List.subset_append_left _ _

theorem accessSpans_of_selfModifying (h : m.selfModifying = true) (kind : AccessKind) :
    m.accessSpans kind = m.accessSpans .load := by
  cases kind with
  | load => rfl
  | store => simp only [accessSpans, h, if_true]

/-- Whatever a load may start in is program text or open to stores. -/
theorem mem_text_or_store {span : Span} (h : span ∈ m.accessSpans .load) :
    span = m.text ∨ span = m.ktext ∨ span ∈ m.accessSpans .store := by
  rcases List.mem_append.mp h with hfetch | hdata
  · simp only [fetchSpans, List.mem_cons, List.not_mem_nil, or_false] at hfetch
    rcases hfetch with rfl | rfl
    · exact .inl rfl
    · exact .inr (.inl rfl)
  · exact .inr (.inr (m.dataSpans_subset .store hdata))

/-! ## Accesses of one map -/

theorem validate_load_of_store (h : m.validate address .store width = .ok result) :
    m.validate address .load width = .ok result :=
  checkAccess_mono (m.storeSpans_subset .load) (Nat.le_refl _) h

theorem validate_load_of_validateFetch (h : m.validateFetch address = .ok result) :
    m.validate address .load .word = .ok result :=
  checkAccess_mono m.fetchSpans_subset (Nat.le_refl _) h

theorem validate_store_of_load (hself : m.selfModifying = true)
    (h : m.validate address .load width = .ok result) :
    m.validate address .store width = .ok result := by
  have hspans := accessSpans_of_selfModifying hself .store
  exact checkAccess_mono (hspans ▸ List.Subset.refl _) (Nat.le_refl _) h

/-- The access is allowed. -/
def Allows (m : MemoryMap) (address : UInt32) (kind : AccessKind) (width : Width) : Prop :=
  ∃ result, m.validate address kind width = .ok result

/-- The instruction may be fetched. -/
def AllowsFetch (m : MemoryMap) (address : UInt32) : Prop :=
  ∃ result, m.validateFetch address = .ok result

/-- How the accesses at an address that a map allows depend on each other. -/
structure Nested (m : MemoryMap) (address : UInt32) : Prop where
  result_eq : ∀ kind width result, m.validate address kind width = .ok result → result = address
  fetch_eq : ∀ result, m.validateFetch address = .ok result → result = address
  load_of_store : ∀ width, m.Allows address .store width → m.Allows address .load width
  load_of_fetch : m.AllowsFetch address → m.Allows address .load .word
  store_of_load : m.selfModifying = true →
    ∀ width, m.Allows address .load width → m.Allows address .store width
  store_of_fetch : m.selfModifying = true → m.AllowsFetch address → m.Allows address .store .word
  narrower : ∀ kind (width narrow : Width), narrow.bytes ≤ width.bytes →
    m.Allows address kind width → m.Allows address kind narrow

theorem nested (m : MemoryMap) (address : UInt32) : m.Nested address where
  result_eq := by
    intro kind width result h
    exact (checkAccess_eq_ok_iff.mp h).1
  fetch_eq := by
    intro result h
    exact (checkAccess_eq_ok_iff.mp h).1
  load_of_store := by
    intro width ⟨result, h⟩
    exact ⟨result, validate_load_of_store h⟩
  load_of_fetch := by
    intro ⟨result, h⟩
    exact ⟨result, validate_load_of_validateFetch h⟩
  store_of_load := by
    intro hself width ⟨result, h⟩
    exact ⟨result, validate_store_of_load hself h⟩
  store_of_fetch := by
    intro hself ⟨result, h⟩
    exact ⟨result, validate_store_of_load hself (validate_load_of_validateFetch h)⟩
  narrower := by
    intro kind width narrow hle ⟨result, h⟩
    exact ⟨result, checkAccess_mono (List.Subset.refl _) hle h⟩

/-! ## Self-modifying code -/

/-- The map with stores to program text besides. -/
def modifiable (m : MemoryMap) : MemoryMap := { m with selfModifying := true }

/-- What one map allows at an address more than another: stores to program text. -/
structure Opens (m m' : MemoryMap) (address : UInt32) : Prop where
  load_eq : ∀ width, m'.validate address .load width = m.validate address .load width
  fetch_eq : m'.validateFetch address = m.validateFetch address
  store : ∀ width, m.Allows address .store width → m'.Allows address .store width
  text_of_new : ∀ width, m'.Allows address .store width → ¬ m.Allows address .store width →
    m.text.Contains address ∨ m.ktext.Contains address

theorem opens_modifiable (m : MemoryMap) (address : UInt32) : m.Opens m.modifiable address where
  load_eq _ := rfl
  fetch_eq := rfl
  store := by
    intro width ⟨result, h⟩
    have hload := validate_load_of_store h
    exact ⟨result, validate_store_of_load (m := m.modifiable) rfl hload⟩
  text_of_new := by
    intro width ⟨result, h⟩ hnew
    obtain ⟨rfl, haligned, span, hspan, hcontains⟩ :=
      checkAccess_eq_ok_iff.mp (validate_load_of_store h)
    -- a store outside of program text was allowed before
    rcases mem_text_or_store (m := m) hspan with rfl | rfl | hstore
    · exact .inl hcontains
    · exact .inr hcontains
    · exact absurd ⟨_, checkAccess_eq_ok_iff.mpr ⟨rfl, haligned, span, hstore, hcontains⟩⟩ hnew

/-! ## All accesses -/

/-- In every map the accesses allowed at an address are nested: stores in loads, fetches in loads,
wider ones in narrower ones, and both kinds alike where code may modify itself. Permission for that
opens program text to stores and changes nothing else. Every refusal names the access and its fault,
which is its alignment wherever the address is not a multiple of the width. -/
theorem accesses_nested (m : MemoryMap) (address : UInt32) :
    m.Nested address ∧ m.Opens m.modifiable address ∧
    (∀ kind (width : Width) e, m.validate address kind width = .error e →
      e.Explains address kind width) ∧
    (∀ e, m.validateFetch address = .error e → e.Explains address .load .word) ∧
    ∀ kind (width : Width), ¬ width.IsAligned address.toNat → ¬ m.Allows address kind width := by
  refine ⟨m.nested address, m.opens_modifiable address, ?_, ?_, ?_⟩
  · intro kind width e h
    exact explains_of_checkAccess h
  · intro e h
    exact explains_of_checkAccess h
  · intro kind width hn ⟨result, h⟩
    exact hn (checkAccess_eq_ok_iff.mp h).2.1

/-- The first instruction may be fetched and loaded, its lower half too. It may be overwritten only
where code may modify itself. -/
theorem accesses_nested_text :
    let m := MemoryMap.standard
    m.AllowsFetch 0x00400000 ∧ m.Allows 0x00400000 .load .half ∧
      m.modifiable.Allows 0x00400000 .store .word ∧
      ∃ e, m.validate 0x00400000 .store .word = .error e ∧ e.fault = .outOfRange := by
  intro m
  have hfetch : m.AllowsFetch 0x00400000 := ⟨_, rfl⟩
  have hrefused : m.validate 0x00400000 .store .word =
      .error ⟨0x00400000, .store, .outOfRange⟩ := rfl
  obtain ⟨hnested, hopens, hexplains, -⟩ := accesses_nested m 0x00400000
  have hmodifiable := (accesses_nested m.modifiable 0x00400000).1
  refine ⟨hfetch, ?_, ?_, _, hrefused, ?_⟩
  · exact hnested.narrower .load .word .half (by decide) (hnested.load_of_fetch hfetch)
  · have hfetch' : m.modifiable.AllowsFetch 0x00400000 := by
      rwa [AllowsFetch, hopens.fetch_eq]
    exact hmodifiable.store_of_fetch rfl hfetch'
  · exact (hexplains .store .word _ hrefused).outOfRange_iff.mpr (by decide)

end MemoryMap

end MipsMemory
