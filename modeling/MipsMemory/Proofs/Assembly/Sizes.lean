import MipsMemory.Proofs.Assembly.Steps

/-!
What a unit takes up. A statement brings a payload, which its directive and its operands give, and
may skip bytes to align it. Main statement: in a unit that is laid out each segment is filled as far
as the payloads and the skipped bytes of the statements executed there add up to, the extern area as
far as the declared sizes do, and what a data statement reserves makes up its payload, piece by
piece.
-/

namespace MipsMemory

namespace Directive

/-- Strings are stored byte by byte. -/
theorem width_eq_byte_of_text {d : Directive} (h : d ∈ catalogue) {width : Width}
    {terminated : Bool} (hrole : d.role = .emit width (.text terminated)) : width = .byte := by
  have hall : ∀ d ∈ catalogue, ∀ width terminated,
      d.role = .emit width (.text terminated) → width = .byte := by
    simp +contextual [catalogue, eq_comm]
  exact hall d h width terminated hrole

end Directive

namespace Assembly

namespace Step

/-! ## What a statement brings -/

/-- The bytes of data in a statement. -/
def payload (p : Step) : Nat :=
  match p.directive.role, p.statement.operands with
  | .emit width (.numeric _), operands => width.bytes * operands.length
  | .emit _ (.text terminated), operands =>
    Directive.textBytes operands + if terminated then operands.length else 0
  | .emit _ .space, [.int n] => n.toNat
  | _, _ => 0

/-- The pieces that a data statement reserves: one for each number or byte, one in all for space. -/
def pieces (p : Step) : Nat :=
  match p.directive.role, p.statement.operands with
  | .emit _ (.numeric _), operands => operands.length
  | .emit _ .space, _ => 1
  | _, _ => p.payload

/-- The bytes that a statement declares as an extern. -/
def externSize (p : Step) : Nat :=
  match p.directive.role, p.statement.operands with
  | .declare .externs, [.text _, .int size] => size.toNat
  | _, _ => 0

/-- The bytes a statement may skip: less than the width before numbers, and none while automatic
alignment is off, less than the power of two that an alignment asks for, and none otherwise. -/
def MaySkip (p : Step) (skipped : Nat) : Prop :=
  match p.directive.role, p.statement.operands with
  | .emit width (.numeric _), _ =>
    skipped < width.bytes ∧ (p.before.active.autoAlign = false → skipped = 0)
  | .align, [.int exponent] => skipped < 2 ^ exponent.toNat
  | _, _ => skipped = 0

/-- The bytes by which the segment that a statement is executed in grows beyond its payload. -/
def padding (p : Step) : Nat :=
  p.after.offset p.before.current - (p.before.offset p.before.current + p.payload)

/-- The bytes by which a statement fills an area, besides its payload those that it skips. -/
def growth (p : Step) (skipped : Nat) : Area → Nat
  | .segment s => if p.before.current = s then p.payload + skipped else 0
  | .externs => p.externSize

/-- A step takes up what its statement brings. -/
structure Accounted (p : Step) : Prop where
  grows : ∀ area, (p.after.areaCursor area).offset =
    (p.before.areaCursor area).offset + p.growth p.padding area
  padding : p.MaySkip p.padding
  data : ∀ width payload, p.directive.role = .emit width payload →
    p.items.length = p.pieces ∧ totalSize p.items = p.payload ∧
      p.items.IsChain fun x y => y.address.toNat = x.finish

/-! ## What a statement fills -/

variable {p : Step} {m : MemoryMap}

theorem payload_eq_zero (h : ∀ width payload, p.directive.role ≠ .emit width payload) :
    p.payload = 0 := by
  unfold payload
  split <;> first | rfl | exact absurd ‹_› (h _ _)

theorem externSize_eq_zero (h : p.directive.role ≠ .declare .externs) : p.externSize = 0 := by
  unfold externSize
  split
  · exact absurd ‹_› h
  · rfl

/-- A step that works in the segment it is executed in fills that segment only. -/
theorem grows_of_segment {c : Cursor} {current : Segment} {skipped : Nat}
    (hafter : p.after = { p.before.setAreaCursor p.area c with current := current })
    (harea : p.area = .segment p.before.current) (hrole : p.directive.role ≠ .declare .externs)
    (hc : c.offset = (p.before.areaCursor p.area).offset + (p.payload + skipped)) (area : Area) :
    (p.after.areaCursor area).offset =
      (p.before.areaCursor area).offset + p.growth skipped area := by
  rw [offset_after hafter]
  by_cases h : area = p.area
  · rw [if_pos h, hc, h, harea, growth, if_pos rfl]
  · cases area with
    | externs => rw [if_neg h, growth, externSize_eq_zero hrole, Nat.add_zero]
    | segment s =>
      have hs : p.before.current ≠ s := fun hs => h (by rw [harea, hs])
      rw [if_neg h, growth, if_neg hs, Nat.add_zero]

/-- A step that works in the extern area fills that area only. -/
theorem grows_of_externs {c : Cursor} {current : Segment}
    (hafter : p.after = { p.before.setAreaCursor p.area c with current := current })
    (harea : p.area = .externs) (hrole : p.directive.role = .declare .externs)
    (hc : c.offset = (p.before.areaCursor p.area).offset + p.externSize) (area : Area) :
    (p.after.areaCursor area).offset = (p.before.areaCursor area).offset + p.growth 0 area := by
  rw [offset_after hafter, hc, harea]
  cases area with
  | externs => rw [if_pos rfl, growth]
  | segment s => simp [growth, payload_eq_zero, hrole]

/-- A step that brings nothing and skips nothing fills nothing. -/
theorem grows_of_unmoved
    (hafter : ∀ area, (p.after.areaCursor area).offset = (p.before.areaCursor area).offset)
    (hemit : ∀ width payload, p.directive.role ≠ .emit width payload)
    (hrole : p.directive.role ≠ .declare .externs) (area : Area) :
    (p.after.areaCursor area).offset = (p.before.areaCursor area).offset + p.growth 0 area := by
  rw [hafter]
  cases area with
  | segment s => simp [growth, payload_eq_zero hemit]
  | externs => simp [growth, externSize_eq_zero hrole]

theorem grows (h : p.before.Within m) : ∃ skipped, p.MaySkip skipped ∧ ∀ area,
    (p.after.areaCursor area).offset =
      (p.before.areaCursor area).offset + p.growth skipped area := by
  have hknown := Directive.mem_catalogue_of_lookup p.known
  rcases moves h with ⟨hrequest, -, hafter⟩ |
    ⟨operation, outcome, c, hrequest, htarget, hadvances, -, hafter⟩
  all_goals have hasks := Directive.asks_of_request hrequest
  · generalize p.statement.operands = operands at hasks
    cases hasks with | inert hinert =>
    simp only [Directive.IsInert, List.mem_cons, List.not_mem_nil, or_false] at hinert
    refine ⟨0, ?_, grows_of_unmoved (fun area => by rw [hafter]) ?_ ?_⟩
    all_goals rcases hinert with h | h | h | h | h | h <;> simp [MaySkip, h]
  · obtain ⟨skipped, hskip, hc⟩ := hadvances.growth (h.bounded _)
    generalize hoperands : p.statement.operands = operands at hasks
    cases hasks with
    | select s role =>
      cases hskip
      refine ⟨0, by simp [MaySkip, role], grows_of_unmoved (fun area => ?_) ?_ ?_⟩
      · rw [offset_after hafter, hc]
        split
        · rename_i heq
          rw [heq]
          rfl
        · rfl
      · simp [role]
      · simp [role]
    | align role e =>
      refine ⟨skipped, ?_, grows_of_segment hafter htarget.symm (by simp [role]) ?_⟩
      · simp only [MaySkip, role, hoperands, Int.toNat_natCast]
        exact hskip
      · rw [payload_eq_zero (by simp [role])]
        exact hc
    | numeric width kind role =>
      have hactive : p.before.active = p.before.areaCursor p.area := by
        rw [← htarget]
        rfl
      refine ⟨skipped, ?_, grows_of_segment hafter htarget.symm (by simp [role]) ?_⟩
      · simp only [MaySkip, role, hactive]
        exact hskip
      · simp only [payload, role, hoperands]
        exact hc
    | text width terminated role =>
      obtain rfl := Directive.width_eq_byte_of_text hknown role
      obtain rfl : skipped = 0 := Nat.lt_one_iff.mp hskip.1
      refine ⟨0, by simp [MaySkip, role], grows_of_segment hafter htarget.symm (by simp [role]) ?_⟩
      simpa [payload, role, hoperands, Allocator.Operation.size, Width.bytes] using hc
    | space width role bytes =>
      cases hskip
      refine ⟨0, by simp [MaySkip, role], grows_of_segment hafter htarget.symm (by simp [role]) ?_⟩
      simpa [payload, role, hoperands, Allocator.Operation.size] using hc
    | externs role name bytes =>
      cases hskip
      refine ⟨0, by simp [MaySkip, role], grows_of_externs hafter htarget.symm role ?_⟩
      simpa [externSize, role, hoperands, Allocator.Operation.size] using hc

/-! ## What a data statement reserves -/

/-- The pieces of a step lie one after another, without gaps, if no piece is empty. -/
theorem isChain_items (h : p.before.Within m) (hpos : ∀ x ∈ p.items, 0 < x.size.toNat) :
    p.items.IsChain fun x y => y.address.toNat = x.finish := by
  obtain ⟨first, -, hconsecutive, hoffset⟩ := extent h
  have hafter := within h
  have hroom := (hafter.bounded p.area).offset_le
  have hend := (hafter.bounded p.area).end_le
  rw [hafter.region_eq] at hroom hend
  exact hconsecutive.isChain hpos (by omega)

theorem data_of_items (h : p.before.Within m) {c : Cursor} {width : Width} {first count : Nat}
    (hitems : p.items = Allocator.items p.area.shown c width first count) :
    p.items.length = count ∧ totalSize p.items = width.bytes * count ∧
      p.items.IsChain fun x y => y.address.toNat = x.finish := by
  have hpos : ∀ x ∈ p.items, 0 < x.size.toNat := by
    rw [hitems]
    intro x hx
    obtain ⟨i, -, rfl⟩ := List.mem_map.mp hx
    rw [width.toNat_ofNat_bytes]
    exact width.bytes_pos
  refine ⟨?_, ?_, isChain_items h hpos⟩
  · rw [hitems, Allocator.items, List.length_map, List.length_range]
  · rw [hitems, Allocator.totalSize_items]

theorem data_of_role (h : p.before.Within m) {width : Width} {payload : Payload}
    (hrole : p.directive.role = .emit width payload) :
    p.items.length = p.pieces ∧ totalSize p.items = p.payload ∧
      p.items.IsChain fun x y => y.address.toNat = x.finish := by
  rcases moves h with ⟨hrequest, -, -⟩ | ⟨operation, outcome, c, hrequest, -, hadvances, hitems, -⟩
  all_goals
    have hasks := Directive.asks_of_request hrequest
    generalize hoperands : p.statement.operands = operands at hasks
  · cases hasks with | inert hinert => simp [Directive.IsInert, hrole] at hinert
  · cases hasks with
    | select _ role | align role | externs role =>
      rw [hrole] at role
      cases role
    | numeric width kind role =>
      cases hadvances with | emit =>
      simpa [pieces, Step.payload, role, hoperands] using data_of_items h hitems
    | text width terminated role =>
      cases hadvances with | emit =>
      obtain rfl :=
        Directive.width_eq_byte_of_text (Directive.mem_catalogue_of_lookup p.known) role
      simpa [pieces, Step.payload, role, hoperands, Width.bytes] using data_of_items h hitems
    | space width role bytes =>
      cases hadvances with | reserve =>
      simp [pieces, Step.payload, role, hoperands, hitems, Allocator.answered]

theorem accounted (h : p.before.Within m) : p.Accounted := by
  obtain ⟨skipped, hskip, hgrows⟩ := grows h
  have hpadding : p.padding = skipped := by
    have hhere := hgrows (.segment p.before.current)
    simp only [growth, if_pos] at hhere
    unfold padding Allocator.offset
    simp only [Allocator.areaCursor] at hhere
    omega
  exact ⟨by rwa [hpadding], by rwa [hpadding], fun _ _ => data_of_role h⟩

end Step

/-! ## Units -/

/-- What statements fill an area by adds up over their steps. -/
theorem offset_of_placeAll {m : MemoryMap} {index : Nat} {statements : List Statement}
    {a a' : Allocator} {bindings : List Binding} (hwithin : a.Within m)
    (h : placeAll index statements a = .ok (bindings, a')) (area : Area) :
    (a'.areaCursor area).offset = (a.areaCursor area).offset +
      ((steps statements a).map fun p => p.growth p.padding area).sum := by
  induction statements generalizing index a bindings with
  | nil =>
    cases h
    rfl
  | cons s rest ih =>
    obtain ⟨p, later, rfl, rfl, -, hrest, rfl⟩ := placeAll_cons_eq_ok_iff_step.mp h
    rw [ih (Step.within hwithin) hrest, (Step.accounted hwithin).grows, steps_cons, List.map_cons,
      List.sum_cons, Nat.add_assoc]

/-- In a unit that is laid out the externs take up their declared sizes, each segment takes up the
payloads and the padding of the statements executed there, and every statement takes up what it
brings. -/
theorem sizes_accounted {m : MemoryMap} {statements : List Statement} {u : Assembled}
    (h : layout m statements = .ok u) :
    let ps := steps statements (.fresh m)
    ps.map Step.statement = statements ∧ (∀ p ∈ ps, p.Accounted) ∧
      u.layout.externUsed = (ps.map Step.externSize).sum ∧
      ∀ s, u.layout.used.get s =
        ((ps.filter (·.before.current = s)).map fun p => p.payload + p.padding).sum := by
  intro ps
  obtain ⟨⟨bindings, a⟩, hplace, rfl⟩ := map_eq_ok_iff.mp h
  obtain ⟨hstatements, -, -⟩ := steps_of_placeAll hplace
  have hoffset (area : Area) : (a.areaCursor area).offset =
      (ps.map fun p => p.growth p.padding area).sum := by
    rw [offset_of_placeAll (Allocator.within_fresh m) hplace, Allocator.areaCursor_fresh]
    exact Nat.zero_add _
  refine ⟨hstatements, fun p hp => Step.accounted (within_of_mem_steps hp), hoffset .externs,
    fun s => ?_⟩
  have hused : a.finish.used.get s = (a.areaCursor (.segment s)).offset := PerSegment.get_ofFn ..
  rw [hused, hoffset]
  simp only [Step.growth]
  rw [List.sum_map_ite, List.map_const', List.sum_replicate_nat, Nat.mul_zero, Nat.add_zero]

/-- Padding before a halfword and by an alignment, none before a doubleword once automatic alignment
is off, and a string that is longer in bytes than in characters. -/
theorem sizes_accounted_standard :
    let m := MemoryMap.standard
    let statements : List Statement :=
      [⟨none, ".data", []⟩, ⟨none, ".byte", [.int 1, .int 2, .int 3]⟩,
        ⟨some "h", ".half", [.int 5]⟩, ⟨none, ".align", [.int 3]⟩, ⟨none, ".align", [.int 0]⟩,
        ⟨some "s", ".asciiz", [.text "é", .text ""]⟩, ⟨none, ".byte", [.int 7]⟩,
        ⟨none, ".double", [.int 1]⟩, ⟨none, ".extern", [.text "x", .int 5]⟩,
        ⟨none, ".kdata", []⟩, ⟨none, ".space", [.int 3]⟩, ⟨none, ".word", [.int 1, .int 2]⟩]
    let brought (s : Segment) : List (Nat × Nat) :=
      ((steps statements (.fresh m)).filter (·.before.current = s)).map fun p =>
        (p.payload, p.padding)
    brought .data = [(3, 0), (2, 1), (0, 2), (0, 0), (4, 0), (1, 0), (8, 0), (0, 0), (0, 0)] ∧
      brought .kernelData = [(3, 0), (8, 1)] ∧
      ∃ u, layout m statements = .ok u ∧ u.layout.externUsed = 5 ∧
        u.layout.used.get .data = 21 ∧ u.layout.used.get .kernelData = 12 := by
  intro m statements brought
  refine ⟨by decide +kernel, by decide +kernel, ?_⟩
  have hlayout : (layout m statements).toOption.isSome := by decide +kernel
  cases hu : layout m statements with
  | error failure =>
    rw [hu] at hlayout
    cases hlayout
  | ok u =>
    obtain ⟨-, -, hexterns, hused⟩ := sizes_accounted hu
    refine ⟨u, rfl, hexterns.trans ?_, (hused .data).trans ?_, (hused .kernelData).trans ?_⟩
    all_goals decide +kernel

end Assembly

end MipsMemory
