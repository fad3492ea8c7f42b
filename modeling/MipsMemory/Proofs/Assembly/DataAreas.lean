import MipsMemory.Proofs.Allocator.Placement
import MipsMemory.Proofs.Assembly.Operations

/-!
Static data beside the externs. Both report the data segment, but each has a cursor of its own, and
either may lie lower in memory. Main statement: in a map that passes its check no two allocations
reported as data share a byte, whatever order a run or a unit places them in.
-/

namespace MipsMemory

/-! ## The two areas of data -/

namespace MemoryMap

variable {m : MemoryMap}

theorem data_not_in_externs_of_defect?_eq_none (h : m.defect? = none) :
    ¬ m.externs.Contains m.data.first := by
  unfold defect? at h
  split at h
  · cases h
  · split at h
    · cases h
    · split at h
      · cases h
      · assumption

theorem staticDataEnd_le_of_lt (h : m.data.first < m.externs.first) :
    m.staticDataEnd ≤ m.externs.first.toNat := by
  rw [staticDataEnd, if_pos h]
  exact Nat.min_le_right _ _

/-- The externs end before static data begins, or static data is cut off where they begin. -/
theorem data_disjoint_externs (h : m.defect? = none) :
    (m.region .data).Disjoint m.externRegion := by
  intro byte hdata hexterns
  obtain ⟨hfirst, hfinish⟩ := Region.holds_upTo.mp hdata
  obtain ⟨hlow, hhigh⟩ := Region.holds_upTo.mp hexterns
  by_cases hbelow : m.data.first < m.externs.first
  · have hcut := staticDataEnd_le_of_lt hbelow
    omega
  · have hapart := data_not_in_externs_of_defect?_eq_none h
    rw [Span.Contains, UInt32.le_iff_toNat_le, UInt32.le_iff_toNat_le] at hapart
    rw [UInt32.lt_iff_toNat_lt] at hbelow
    omega

theorem areaRegion_disjoint (h : m.defect? = none) {r s : Area} (hr : r.shown = .data)
    (hs : s.shown = .data) (hne : r ≠ s) : (m.areaRegion r).Disjoint (m.areaRegion s) := by
  have hdisjoint := data_disjoint_externs h
  cases r with
  | externs =>
    cases s with
    | externs => exact absurd rfl hne
    | segment s =>
      cases hs
      exact hdisjoint.symm
  | segment r =>
    cases hr
    cases s with
    | externs => exact hdisjoint
    | segment s =>
      cases hs
      exact absurd rfl hne

end MemoryMap

namespace Allocator

/-! ## Allocations with their areas -/

/-- What calls answer, each allocation with the area it lies in. -/
def located : List Operation → List (Except Error Outcome) → List (Area × Allocation)
  | operation :: operations, answer :: answers =>
    (answered answer).map (fun x => (operation.areaOf x, x)) ++ located operations answers
  | _, _ => []

theorem placed_eq_located (area : Area) (operations : List Operation)
    (answers : List (Except Error Outcome)) :
    placed area operations answers =
      ((located operations answers).filter (·.1 = area)).map Prod.snd := by
  induction operations generalizing answers with
  | nil => rfl
  | cons operation operations ih =>
    cases answers with
    | nil => rfl
    | cons answer answers =>
      simp [placed, located, placedBy, ih, List.filter_map, Function.comp_def]

theorem located_run (a : Allocator) (operations : List Operation) :
    (located operations (a.run operations).1).map Prod.snd =
      (a.run operations).1.flatMap answered := by
  induction operations generalizing a with
  | nil => rfl
  | cons operation operations ih => simp [run, located, ih, Function.comp_def]

theorem shown_of_mem_located {operations : List Operation} {answers : List (Except Error Outcome)}
    {area : Area} {x : Allocation} (h : (area, x) ∈ located operations answers)
    (hdata : x.segment = .data) : area.shown = .data := by
  induction operations generalizing answers with
  | nil => cases h
  | cons operation operations ih =>
    cases answers with
    | nil => cases h
    | cons answer answers =>
      rcases List.mem_append.mp h with h | h
      · obtain ⟨y, -, he⟩ := List.mem_map.mp h
        cases he
        cases operation <;> first | rfl | exact hdata
      · exact ih h

theorem mem_placed_of_mem_located {operations : List Operation}
    {answers : List (Except Error Outcome)} {area : Area} {x : Allocation}
    (h : (area, x) ∈ located operations answers) : x ∈ placed area operations answers := by
  rw [placed_eq_located]
  exact List.mem_map_of_mem (List.mem_filter.mpr ⟨h, by simp⟩)

/-! ## Disjointness -/

/-- Whatever areas of data two allocations come from, they share no byte: one area is packed, and
two areas are apart. -/
theorem data_disjoint_of_run {m : MemoryMap} (h : m.defect? = none) (operations : List Operation) :
    ((((fresh m).run operations).1.flatMap answered).filter (·.segment = .data)).Pairwise
      fun x y => x.region.Disjoint y.region := by
  have hpacked (area : Area) : (located operations ((fresh m).run operations).1).Pairwise
      fun x y => x.1 = area → y.1 = area → x.2.region.Disjoint y.2.region := by
    have hplaced := pairwise_disjoint_placed m operations area
    rw [placed_eq_located, List.pairwise_map, List.pairwise_filter] at hplaced
    simpa using hplaced
  rw [← located_run, List.filter_map, List.pairwise_map, List.pairwise_filter]
  refine ((hpacked (.segment .data)).and (hpacked .externs)).imp_of_mem ?_
  rintro ⟨r, x⟩ ⟨s, y⟩ hx hy ⟨hsegment, hexterns⟩ hxdata hydata
  have hr := shown_of_mem_located hx (of_decide_eq_true hxdata)
  have hs := shown_of_mem_located hy (of_decide_eq_true hydata)
  by_cases hrs : r = s
  · subst hrs
    cases r with
    | externs => exact hexterns rfl rfl
    | segment r =>
      cases hr
      exact hsegment rfl rfl
  · intro byte hxbyte hybyte
    exact MemoryMap.areaRegion_disjoint h hr hs hrs byte
      (holds_of_mem_placed (mem_placed_of_mem_located hx) hxbyte)
      (holds_of_mem_placed (mem_placed_of_mem_located hy) hybyte)

/-- In a map that passes its check no two allocations reported as data share a byte, be they static
data or externs: of any run, and of any unit that is laid out. -/
theorem data_allocations_disjoint {m : MemoryMap} (h : m.defect? = none) :
    (∀ operations,
      ((((fresh m).run operations).1.flatMap answered).filter (·.segment = .data)).Pairwise
        fun x y => x.region.Disjoint y.region) ∧
    ∀ statements u, Assembly.layout m statements = .ok u →
      ((Assembly.reserved statements (fresh m)).filter (·.segment = .data)).Pairwise
        fun x y => x.region.Disjoint y.region := by
  refine ⟨data_disjoint_of_run h, fun statements u hlayout => ?_⟩
  obtain ⟨operations, hanswers, -⟩ := Assembly.exists_run_of_layout hlayout
  rw [← hanswers]
  exact data_disjoint_of_run h operations

/-- Static data below the externs, filled to its end while externs are reserved in between: by
calls, and by the statements of a unit. -/
theorem data_allocations_disjoint_compact :
    let m := MemoryMap.compactDataAtZero
    let operations : List Operation :=
      [.reserveExtern 2, .select .data, .emit .word 2, .reserveExtern 8, .reserve 0xff8]
    let statements : List Statement :=
      [⟨none, ".extern", [.text "a", .int 2]⟩, ⟨none, ".data", []⟩,
        ⟨some "b", ".word", [.int 1, .int 2]⟩, ⟨none, ".extern", [.text "c", .int 8]⟩,
        ⟨some "d", ".space", [.int 0xff8]⟩]
    let items : List Allocation :=
      [⟨.data, 0x1000, 2⟩, ⟨.data, 0, 4⟩, ⟨.data, 4, 4⟩, ⟨.data, 0x1002, 8⟩, ⟨.data, 8, 0xff8⟩]
    (m.defect? = none ∧ (Assembly.layout m statements).toOption.isSome) ∧
      ((fresh m).run operations).1.flatMap answered = items ∧
      Assembly.reserved statements (fresh m) = items ∧
      items.Pairwise fun x y => x.region.Disjoint y.region := by
  intro m operations statements items
  have hlayout : (Assembly.layout m statements).toOption.isSome := by decide +kernel
  have hrun : ((fresh m).run operations).1.flatMap answered = items := by decide +kernel
  have hreserved : Assembly.reserved statements (fresh m) = items := by decide +kernel
  refine ⟨⟨rfl, hlayout⟩, hrun, hreserved, ?_⟩
  cases hu : Assembly.layout m statements with
  | error failure =>
    rw [hu] at hlayout
    cases hlayout
  | ok u =>
    have hdisjoint := (data_allocations_disjoint (m := m) rfl).2 statements u hu
    rw [hreserved] at hdisjoint
    exact hdisjoint

end Allocator

end MipsMemory
