import MipsMemory.Access
import MipsMemory.Proofs.Alignment
import MipsMemory.Proofs.Region

/-!
Which bytes an allowed access takes up. The check looks at the start address alone, and the last
address of a span may lie anywhere in an item. Main statement: all allowed accesses lie inside a
reachable region exactly if, in every span and for every width, the last one does. Fetches always
lie inside, since a text region ends with a whole word.
-/

namespace MipsMemory

/-- All bytes of an item lie in one of the regions. -/
def Covered (regions : List Region) (address : Nat) (width : Width) : Prop :=
  ∃ region ∈ regions, ∀ i < width.bytes, region.Holds (address + i)

instance (regions : List Region) (address : Nat) (width : Width) :
    Decidable (Covered regions address width) :=
  inferInstanceAs (Decidable (∃ _ ∈ _, _))

namespace Span

/-- The bytes from the first address through the last. -/
def region (s : Span) : Region := .upTo s.first (s.last.toNat + 1)

/-- The region holds at least the bytes of the span. -/
def Within (s : Span) (region : Region) : Prop :=
  ∀ byte, s.first.toNat ≤ byte → byte ≤ s.last.toNat → region.Holds byte

theorem within_region (s : Span) : s.Within s.region := fun _ hfirst hlast =>
  Region.holds_upTo.mpr ⟨hfirst, Nat.lt_succ_of_le hlast⟩

theorem within_upTo_wordEnd (s : Span) : s.Within (.upTo s.first (MemoryMap.wordEnd s.last)) := by
  intro byte hfirst hlast
  exact Region.holds_upTo.mpr ⟨hfirst, Nat.lt_of_le_of_lt hlast (MemoryMap.lt_wordEnd _)⟩

end Span

/-- Allowed accesses of a width are covered exactly if the last one in each span is: every other
one ends inside the span. -/
theorem checkAccess_covered_iff {spans : List Span} {regions : List Region}
    (hwithin : ∀ span ∈ spans, ∃ region ∈ regions, span.Within region) (kind : AccessKind)
    (width : Width) :
    (∀ address result, checkAccess spans address kind width = .ok result →
      Covered regions address.toNat width) ↔
    ∀ span ∈ spans, span.first.toNat ≤ width.alignDown span.last.toNat →
      Covered regions (width.alignDown span.last.toNat) width := by
  constructor
  · intro h span hspan hfirst
    have hle := width.alignDown_le span.last.toNat
    obtain ⟨start, hstart⟩ : ∃ start : UInt32, start.toNat = width.alignDown span.last.toNat :=
      ⟨.ofNat _, UInt32.toNat_ofNat_of_lt' (Nat.lt_of_le_of_lt hle span.last.toNat_lt_size)⟩
    rw [← hstart] at hfirst hle ⊢
    refine h start start (checkAccess_eq_ok_iff.mpr ⟨rfl, ?_, span, hspan, hfirst, hle⟩)
    rw [hstart]
    exact width.isAligned_alignDown _
  · intro h address result hok
    obtain ⟨-, haligned, span, hspan, hfirst, hlast⟩ := checkAccess_eq_ok_iff.mp hok
    rw [UInt32.le_iff_toNat_le] at hfirst hlast
    have hlast := haligned.le_alignDown hlast
    -- an access before the last start ends there at the latest, and so inside the span
    rcases Nat.lt_or_eq_of_le hlast with hlt | heq
    · obtain ⟨region, hregion, hbytes⟩ := hwithin span hspan
      have hend := haligned.add_bytes_le (width.isAligned_alignDown _) hlt
      have hle := width.alignDown_le span.last.toNat
      exact ⟨region, hregion, fun i hi => hbytes _ (by omega) (by omega)⟩
    · rw [heq]
      exact h span hspan (heq ▸ hfirst)

namespace MemoryMap

/-- The bytes of instructions: text is reachable to the end of the word at its limit. -/
def fetchRegions (m : MemoryMap) : List Region := [m.region .text, m.region .kernelText]

/-- The bytes of data: each span is reachable to the byte at its limit. -/
def dataRegions (m : MemoryMap) : List Region := m.dataSpans.map Span.region

/-- Where all bytes of an access should lie. -/
def accessRegions (m : MemoryMap) : AccessKind → List Region
  | .load => m.fetchRegions ++ m.dataRegions
  | .store => if m.selfModifying then m.fetchRegions ++ m.dataRegions else m.dataRegions

/-- Text and data keep their own kinds of regions in whatever an access reaches. -/
theorem mem_accessSpans {m : MemoryMap} {kind : AccessKind} {span : Span}
    (h : span ∈ m.accessSpans kind) :
    (span ∈ m.fetchSpans ∧ m.fetchRegions ⊆ m.accessRegions kind) ∨
      (span ∈ m.dataSpans ∧ m.dataRegions ⊆ m.accessRegions kind) := by
  have hboth (h : span ∈ m.fetchSpans ++ m.dataSpans) :
      (span ∈ m.fetchSpans ∧ m.fetchRegions ⊆ m.fetchRegions ++ m.dataRegions) ∨
        (span ∈ m.dataSpans ∧ m.dataRegions ⊆ m.fetchRegions ++ m.dataRegions) :=
    (List.mem_append.mp h).imp (⟨·, List.subset_append_left _ _⟩)
      (⟨·, List.subset_append_right _ _⟩)
  cases kind with
  | load => exact hboth h
  | store =>
    cases hself : m.selfModifying with
    | false =>
      simp only [accessSpans, accessRegions, hself] at h ⊢
      exact .inr ⟨h, List.Subset.refl _⟩
    | true =>
      simp only [accessSpans, accessRegions, hself] at h ⊢
      exact hboth h

theorem fetchRegions_eq (m : MemoryMap) :
    m.fetchRegions = m.fetchSpans.map fun span => .upTo span.first (wordEnd span.last) := rfl

theorem upTo_mem_fetchRegions {m : MemoryMap} {span : Span} (h : span ∈ m.fetchSpans) :
    .upTo span.first (wordEnd span.last) ∈ m.fetchRegions := by
  rw [fetchRegions_eq]
  exact List.mem_map_of_mem h

theorem exists_within_accessRegions {m : MemoryMap} {kind : AccessKind} {span : Span}
    (h : span ∈ m.accessSpans kind) : ∃ region ∈ m.accessRegions kind, span.Within region := by
  rcases mem_accessSpans h with ⟨hspan, hsub⟩ | ⟨hspan, hsub⟩
  · exact ⟨_, hsub (upTo_mem_fetchRegions hspan), span.within_upTo_wordEnd⟩
  · exact ⟨_, hsub (List.mem_map_of_mem hspan), span.within_region⟩

/-! ## Limits that leave room -/

/-- In every span an access can start in, the last start of each width leaves room for the item. -/
def LimitsFit (m : MemoryMap) : Prop :=
  ∀ kind width, ∀ span ∈ m.accessSpans kind, span.first.toNat ≤ width.alignDown span.last.toNat →
    Covered (m.accessRegions kind) (width.alignDown span.last.toNat) width

/-- Before a multiple of a width there is room for every aligned item. -/
theorem covered_of_lt {regions : List Region} {base : UInt32} {width : Width}
    {address finish : Nat} (hregion : .upTo base finish ∈ regions)
    (hfinish : width.IsAligned finish) (haddress : width.IsAligned address)
    (hbase : base.toNat ≤ address) (hlt : address < finish) : Covered regions address width := by
  have hend := haddress.add_bytes_le hfinish hlt
  exact ⟨_, hregion, fun i hi => Region.holds_upTo.mpr ⟨by omega, by omega⟩⟩

/-- Spans that end with a whole doubleword leave room, as those of the built-in maps do. -/
theorem limitsFit_of_isAligned {m : MemoryMap}
    (hfetch : ∀ span ∈ m.fetchSpans, Width.double.IsAligned (wordEnd span.last))
    (hdata : ∀ span ∈ m.dataSpans, Width.double.IsAligned (span.last.toNat + 1)) :
    m.LimitsFit := by
  intro kind width span h hfirst
  have haligned := width.isAligned_alignDown span.last.toNat
  have hle := width.alignDown_le span.last.toNat
  rcases mem_accessSpans h with ⟨hspan, hsub⟩ | ⟨hspan, hsub⟩
  · have hfinish := width.isAligned_of_double (hfetch span hspan)
    exact covered_of_lt (hsub (upTo_mem_fetchRegions hspan)) hfinish haligned hfirst
      (Nat.lt_of_le_of_lt hle (lt_wordEnd _))
  · have hfinish := width.isAligned_of_double (hdata span hspan)
    exact covered_of_lt (hsub (List.mem_map_of_mem hspan)) hfinish haligned hfirst
      (Nat.lt_succ_of_le hle)

theorem limitsFit_of_mem_presets {m : MemoryMap} (h : m ∈ presets) : m.LimitsFit := by
  simp only [presets, List.mem_cons, List.not_mem_nil, or_false] at h
  rcases h with rfl | rfl | rfl <;> exact limitsFit_of_isAligned (by decide) (by decide)

/-! ## The check of a map's accesses -/

/-- A fetched instruction lies in a text region, since that ends with a whole word. -/
theorem validateFetch_covered {m : MemoryMap} {address result : UInt32}
    (h : m.validateFetch address = .ok result) : Covered m.fetchRegions address.toNat .word := by
  obtain ⟨-, haligned, span, hspan, hfirst, hlast⟩ := checkAccess_eq_ok_iff.mp h
  exact covered_of_lt (upTo_mem_fetchRegions hspan) (isAligned_wordEnd _) haligned hfirst
    (Nat.lt_of_le_of_lt hlast (lt_wordEnd _))

/-- Every byte of every allowed access lies in one reachable region exactly if the limits leave
room for it, and every byte of an instruction lies in a text region. -/
theorem allowed_bytes_reachable_iff (m : MemoryMap) :
    ((∀ address kind width result, m.validate address kind width = .ok result →
        Covered (m.accessRegions kind) address.toNat width) ↔ m.LimitsFit) ∧
      ∀ address result, m.validateFetch address = .ok result →
        Covered m.fetchRegions address.toNat .word := by
  have hwithin (kind : AccessKind) (span : Span) (h : span ∈ m.accessSpans kind) :=
    exists_within_accessRegions h
  refine ⟨⟨fun h kind width => ?_, fun h address kind width => ?_⟩, ?_⟩
  · exact (checkAccess_covered_iff (hwithin kind) kind width).mp fun address => h address kind width
  · exact (checkAccess_covered_iff (hwithin kind) kind width).mpr (h kind width) address
  · intro address result
    exact validateFetch_covered

/-- A data limit within a doubleword: the map passes its check, but a doubleword that starts at
the limit is stored beyond it. -/
theorem store_beyond_limit :
    let m : MemoryMap := { standard with data := ⟨0x10010000, 0x7ffffff8⟩ }
    m.defect? = none ∧ m.validate 0x7ffffff8 .store .double = .ok 0x7ffffff8 ∧
      ¬ Covered (m.accessRegions .store) 0x7ffffff8 .double :=
  ⟨rfl, rfl, by decide⟩

end MemoryMap

end MipsMemory
