import MipsMemory.Proofs.Assembly.SymbolAddresses

/-!
Text segments stay empty. The statements that are laid out here place data only; instructions come
after them. Main statement: whatever the map and however a unit goes back and forth between its
segments, it reserves nothing in a text segment, and every symbol that it leaves there is the empty
piece at the segment's base.
-/

namespace MipsMemory

/-- The areas are those of a map, and no text segment is filled beyond its base. -/
structure Allocator.TextEmpty (m : MemoryMap) (a : Allocator) : Prop extends a.Within m where
  offset_eq_zero : ∀ area : Area, area.shown.isText = true → (a.areaCursor area).offset = 0

theorem Allocator.textEmpty_fresh (m : MemoryMap) : (fresh m).TextEmpty m where
  toWithin := within_fresh m
  offset_eq_zero area _ := by rw [areaCursor_fresh]; rfl

namespace Assembly

namespace Step

variable {p : Step} {m : MemoryMap}

/-! ## One step -/

/-- Text segments see nothing of a step but that they are selected or aligned, and the base is
aligned already: offsets are aligned, not addresses. -/
theorem textEmpty (h : p.before.TextEmpty m) : p.after.TextEmpty m := by
  refine ⟨within h.toWithin, fun area htext => ?_⟩
  rcases moves h.toWithin with ⟨-, -, hafter⟩ |
    ⟨operation, outcome, c, hrequest, htarget, hadvances, -, hafter⟩
  · rw [hafter]
    exact h.offset_eq_zero area htext
  · rw [offset_after hafter]
    by_cases harea : area = p.area
    · subst harea
      rw [if_pos rfl]
      have hzero := h.offset_eq_zero p.area htext
      rw [← htarget] at htext
      rcases Directive.select_or_align_of_isText hrequest htext with ⟨s, rfl⟩ | ⟨exponent, rfl⟩
      · cases hadvances
        exact hzero
      · cases hadvances with | align _ width =>
        rw [hzero]
        exact width.alignUp_zero
    · rw [if_neg harea]
      exact h.offset_eq_zero area htext

theorem isText_of_mem_items (h : p.before.Within m) {x : Allocation} (hx : x ∈ p.items) :
    x.segment.isText = false := by
  have hdata := isText_area h (List.ne_nil_of_mem hx)
  rcases moves h with ⟨-, hnil, -⟩ | ⟨operation, outcome, c, -, -, hadvances, hitems, -⟩
  · rw [hnil] at hx
    cases hx
  · rwa [hadvances.segment_eq (hitems ▸ hx)]

/-- A name that points into a text segment stands for no byte, right at its base. -/
theorem item_of_isText (h : p.before.TextEmpty m) (htext : p.item.segment.isText = true) :
    p.item.size = 0 ∧ p.item.address = (m.region p.item.segment).base := by
  cases hitems : p.items with
  | cons x xs =>
    have hitem : p.item = x := by rw [item, hitems]; rfl
    have hdata := isText_of_mem_items h.toWithin (hitems ▸ List.mem_cons_self)
    rw [hitem, hdata] at htext
    cases htext
  | nil =>
    rw [item_eq_of_items_eq_nil hitems] at htext ⊢
    have hafter := textEmpty h
    have hoffset : p.after.active.offset = 0 :=
      hafter.offset_eq_zero (.segment p.after.current) htext
    have hregion : p.after.active.region = m.region p.after.current :=
      hafter.region_eq (.segment p.after.current)
    refine ⟨rfl, ?_⟩
    simp only [Cursor.addressOf, hoffset, hregion, Nat.add_zero, UInt32.ofNat_toNat]

end Step

end Assembly

/-! ## Units -/

/-- A segment is not used, and all symbols in it are empty pieces at its base. -/
structure Assembled.Untouched (u : Assembled) (s : Segment) (base : UInt32) : Prop where
  used : u.layout.used.get s = 0
  symbols : ∀ b ∈ u.table.symbols, b.item.segment = s → b.item.size = 0 ∧ b.item.address = base

namespace Assembly

theorem untouched_of_isText {m : MemoryMap} {statements : List Statement} {u : Assembled}
    (h : layout m statements = .ok u) {s : Segment} (hs : s.isText = true) :
    u.Untouched s (m.region s).base where
  used := by
    obtain ⟨⟨bindings, a⟩, hplace, rfl⟩ := map_eq_ok_iff.mp h
    have hempty : a.TextEmpty m :=
      placeAll_induction (fun _ => Step.textEmpty) (Allocator.textEmpty_fresh m) hplace
    have hused : a.finish.used.get s = (a.areaCursor (.segment s)).offset :=
      PerSegment.get_ofFn ..
    exact hused.trans (hempty.offset_eq_zero (.segment s) hs)
  symbols := by
    rintro b hb rfl
    obtain ⟨p, hp, hitem⟩ := exists_definition h hb
    obtain ⟨hmem, -⟩ := List.mem_filter.mp (List.mem_of_getLast? hp)
    have hempty : p.before.TextEmpty m :=
      forall_mem_steps (fun _ => Step.textEmpty) (Allocator.textEmpty_fresh m) p hmem
    rw [hitem] at hs ⊢
    exact Step.item_of_isText hempty hs

/-- Whatever its map, a unit that is laid out reserves nothing in a text segment, uses no byte of
either, and has no symbols in them but empty ones at their bases. -/
theorem text_segments_untouched {m : MemoryMap} {statements : List Statement} {u : Assembled}
    (h : layout m statements = .ok u) :
    (∀ x ∈ reserved statements (.fresh m), x.segment.isText = false) ∧
      u.Untouched .text m.text.first ∧ u.Untouched .kernelText m.ktext.first := by
  refine ⟨fun x hx => ?_, untouched_of_isText h rfl, untouched_of_isText h rfl⟩
  rw [reserved_eq_flatMap_steps] at hx
  obtain ⟨p, hp, hx⟩ := List.mem_flatMap.mp hx
  exact Step.isText_of_mem_items (within_of_mem_steps hp) hx

/-- Text at an odd base and kernel text without room: labels there before and after alignments, next
to an extern that is declared from a text segment, and one that moves there from static data. -/
theorem text_segments_untouched_odd :
    let m : MemoryMap :=
      { MemoryMap.standard with
        text := ⟨0x00400001, 0x0ffffffc⟩, ktext := ⟨0x80000002, 0x70000000⟩ }
    let statements : List Statement :=
      [⟨some "start", ".text", []⟩, ⟨some "x", ".data", []⟩,
        ⟨some "y", ".word", [.int 1, .int 2]⟩, ⟨none, ".text", []⟩,
        ⟨some "main", ".align", [.int 3]⟩, ⟨some "e", ".extern", [.text "z", .int 5]⟩,
        ⟨some "x", ".globl", [.text "main"]⟩, ⟨none, ".ktext", []⟩,
        ⟨some "trap", ".align", [.int 2]⟩]
    let symbols : List Binding :=
      [⟨"start", .text, 0x00400001, 0⟩, ⟨"x", .text, 0x00400001, 0⟩, ⟨"y", .data, 0x10010000, 4⟩,
        ⟨"main", .text, 0x00400001, 0⟩, ⟨"z", .data, 0x10000000, 5⟩, ⟨"e", .data, 0x10000000, 5⟩,
        ⟨"trap", .kernelText, 0x80000002, 0⟩]
    m.region .kernelText = ⟨0x80000002, 0⟩ ∧ ∃ u, layout m statements = .ok u ∧
      u.table.symbols = symbols ∧
      u.Untouched .text 0x00400001 ∧ u.Untouched .kernelText 0x80000002 := by
  intro m statements symbols
  have hlayout : (layout m statements).toOption.map (·.table.symbols) = some symbols := by
    decide +kernel
  obtain ⟨u, hu, hsymbols⟩ := exists_of_toOption_map hlayout
  obtain ⟨-, htext, hktext⟩ := text_segments_untouched hu
  exact ⟨by decide, u, hu, hsymbols, htext, hktext⟩

end Assembly

end MipsMemory
