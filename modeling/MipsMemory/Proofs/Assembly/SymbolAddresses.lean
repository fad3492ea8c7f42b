import MipsMemory.Proofs.Assembly.Prefixes
import MipsMemory.Proofs.Assembly.Steps

/-!
Where symbols point. Addresses are reduced to 32 bits, so a name that denotes the end of the address
space may wrap around to zero. Main statement: the symbols of a unit lie in the regions they were
placed in, and a name that denotes the end of the address space fails the unit, exactly if no named
statement reserves an empty piece there. Under which maps no unit does so, the ends of their regions
tell.
-/

namespace MipsMemory

/-- Every region that data can be placed in ends before the end of the address space. -/
def MemoryMap.DataBelowTop (m : MemoryMap) : Prop :=
  ∀ area : Area, area.shown.isText = false →
    (m.areaRegion area).base.toNat + (m.areaRegion area).capacity < UInt32.size

namespace Assembly

variable {m : MemoryMap} {statements : List Statement} {index : Nat} {a : Allocator}
  {s : Statement}

/-! ## Statements in their unit -/

/-- The statements before an index can be carried out, and leave an allocator. -/
def Reaches (m : MemoryMap) (statements : List Statement) (index : Nat) (a : Allocator) : Prop :=
  ∃ bindings, placeAll 0 (statements.take index) (.fresh m) = .ok (bindings, a)

/-- A unit fails at a statement that is reached exactly if that statement fails. -/
theorem Reaches.layout_eq_error_iff (h : Reaches m statements index a)
    (hs : statements[index]? = some s) {e : Error} :
    layout m statements = .error ⟨index, e⟩ ↔ place s a = .error e := by
  obtain ⟨bindings, hbefore⟩ := h
  obtain ⟨hlt, -⟩ := List.getElem?_eq_some_iff.mp hs
  have hlength : 0 + (statements.take index).length = index := by
    rw [List.length_take]
    omega
  have hlayout : layout m (statements.take (index + 1)) = .error ⟨index, e⟩ ↔
      place s a = .error e := by
    rw [List.take_add_one, hs, Option.toList_some, layout, placeAll_append, hbefore, hlength]
    cases hplace : place s a with
    | error e' => simp [placeAll, hplace, bind, Except.bind, Except.map, Except.mapError]
    | ok placed =>
      simp [placeAll, hplace, bind, Except.bind, Except.map, Except.mapError, pure, Except.pure]
  rw [Assembly.layout_eq_error_iff, hlayout]
  have hreached : ∃ u, layout m (statements.take index) = .ok u := by
    rw [layout, hbefore]
    exact ⟨_, rfl⟩
  exact ⟨fun h => h.2.2, fun h => ⟨hlt, hreached, h⟩⟩

/-- Every step of statements that are carried out is reached. -/
theorem exists_reaches {bindings : List Binding} {a' : Allocator}
    (h : placeAll 0 statements (.fresh m) = .ok (bindings, a')) {p : Step}
    (hp : p ∈ steps statements (.fresh m)) :
    ∃ index, Reaches m statements index p.before ∧ statements[index]? = some p.statement := by
  -- the statements after a step are carried out by another allocator and counted from elsewhere
  suffices hgeneral : ∀ {statements : List Statement} {first : Nat} {a : Allocator} {bindings},
      placeAll first statements a = .ok (bindings, a') → p ∈ steps statements a →
      ∃ index bindings, placeAll first (statements.take index) a = .ok (bindings, p.before) ∧
        statements[index]? = some p.statement by
    obtain ⟨index, bindings, hbefore, hs⟩ := hgeneral h hp
    exact ⟨index, ⟨bindings, hbefore⟩, hs⟩
  intro statements
  induction statements with
  | nil => exact fun _ hp => absurd hp (List.not_mem_nil)
  | cons s rest ih =>
    intro first a bindings h hp
    obtain ⟨q, later, rfl, rfl, hlabelable, hrest, -⟩ := placeAll_cons_eq_ok_iff_step.mp h
    rw [steps_cons] at hp
    rcases List.mem_cons.mp hp with rfl | hp
    · exact ⟨0, [], rfl, rfl⟩
    · obtain ⟨index, bindings, hbefore, hs⟩ := ih hrest hp
      exact ⟨index + 1, _, placeAll_cons_eq_ok_iff_step.mpr
        ⟨q, bindings, rfl, rfl, hlabelable, hbefore, rfl⟩, hs⟩

/-! ## Where names point -/

namespace Step

/-- The exact address that the names of a step denote. -/
def start (p : Step) : Nat :=
  (p.after.areaCursor p.area).region.base.toNat + (p.after.areaCursor p.area).offset -
    totalSize p.items

variable {p : Step}

/-- A step that reserves nothing has no name but its label. -/
theorem exists_label (h : p.items = []) (hnamed : p.names ≠ []) :
    ∃ name, p.statement.label = some name := by
  have hdeclared : p.declaredName? = none := by
    unfold declaredName?
    split
    · exact absurd ‹_› (role_ne_externs h)
    · rfl
  rw [names, hdeclared] at hnamed
  cases hlabel : p.statement.label with
  | none => simp [hlabel] at hnamed
  | some name => exact ⟨name, rfl⟩

theorem start_eq_of_items_eq_nil (h : p.items = []) :
    p.start = p.after.active.region.base.toNat + p.after.active.offset := by
  rw [start, h, area_eq_of_items_eq_nil h]
  rfl

/-- The names of a step point to its start, and what they stand for ends within the region. -/
theorem item_lies (h : p.before.Within m) :
    p.item.address = UInt32.ofNat p.start ∧
      (m.areaRegion p.area).base.toNat ≤ p.start ∧
      p.start + p.item.size.toNat ≤
        (m.areaRegion p.area).base.toNat + (m.areaRegion p.area).capacity := by
  have hafter := within h
  have hregion := hafter.region_eq p.area
  have hroom := (hafter.bounded p.area).offset_le
  obtain ⟨first, -, hconsecutive, hoffset⟩ := extent h
  rw [hregion] at hroom
  cases hitems : p.items with
  | nil =>
    have hstart := start_eq_of_items_eq_nil hitems
    have harea := area_eq_of_items_eq_nil hitems
    rw [harea] at hroom
    rw [hstart, item_eq_of_items_eq_nil hitems, harea]
    have hactive : p.after.active.region = m.areaRegion (.segment p.after.current) :=
      hafter.region_eq (.segment p.after.current)
    refine ⟨rfl, ?_, ?_⟩
    · rw [hactive]
      exact Nat.le_add_right _ _
    · rw [hactive]
      exact Nat.add_le_add_left hroom _
  | cons x xs =>
    have hitem : p.item = x := by rw [item, hitems]; rfl
    rw [hitems] at hconsecutive hoffset
    have hstart : p.start = (m.areaRegion p.area).base.toNat + first := by
      rw [start, hregion, hitems, hoffset]
      omega
    rw [totalSize_cons] at hoffset
    rw [hstart, hitem]
    exact ⟨hconsecutive.1, Nat.le_add_right _ _, by omega⟩

/-- Data is placed in areas of data only. -/
theorem isText_area (h : p.before.Within m) (hitems : p.items ≠ []) :
    p.area.shown.isText = false := by
  rcases moves h with ⟨-, hnil, -⟩ |
    ⟨operation, outcome, c, hrequest, htarget, hadvances, houtcome, -⟩
  · exact absurd hnil hitems
  · by_contra htext
    rw [← htarget, Bool.not_eq_false] at htext
    rcases Directive.select_or_align_of_isText hrequest htext with ⟨s, rfl⟩ | ⟨e, rfl⟩
    all_goals
      cases hadvances
      exact hitems houtcome

end Step

/-! ## The end of the address space -/

/-- The exact address that a statement gives a name to, in its area: the start of its step, or where
an alignment that its segment has room for leads to, be there an address or not. A statement that
finds no room for what it asks gives a name to nothing. -/
inductive Denotes (s : Statement) (a : Allocator) : Area → Nat → Prop
  | step (p : Step) (statement : p.statement = s) (before : p.before = a) (named : p.names ≠ []) :
      Denotes s a p.area p.start
  | align {d : Directive} {exponent : UInt32} {width : Width}
      (known : Directive.lookup s.directive = .ok d) (role : d.role = .align)
      (operands : s.operands = [.int exponent.toNat])
      (width_eq : Width.ofExponent exponent.toNat = .ok width) (labelled : s.label.isSome)
      (room : width.alignUp a.active.offset ≤ a.active.region.capacity) :
      Denotes s a (.segment a.current)
        (a.active.region.base.toNat + width.alignUp a.active.offset)

/-- No symbol wraps around: all lie in the regions they were placed in, and a name that denotes the
end of the address space fails the unit at its statement. -/
structure SymbolsInside (m : MemoryMap) (statements : List Statement) : Prop where
  inside : ∀ u, layout m statements = .ok u → ∀ b ∈ u.table.symbols, ∃ p,
    definition? m statements b.name = some p ∧ b.item = p.item ∧
      (m.areaRegion p.area).base.toNat ≤ b.item.address.toNat ∧
      b.item.finish ≤ (m.areaRegion p.area).base.toNat + (m.areaRegion p.area).capacity
  exhausted : ∀ index a s area, Reaches m statements index a → statements[index]? = some s →
    Denotes s a area UInt32.size →
      layout m statements = .error ⟨index, .addressSpaceExhausted area.shown⟩

/-- No statement with a name reserves anything, not even an empty piece, at the end of the address
space. -/
def NothingReservedAtTop (m : MemoryMap) (statements : List Statement) : Prop :=
  ∀ index (p : Step), Reaches m statements index p.before →
    statements[index]? = some p.statement → p.names ≠ [] → p.start = UInt32.size → p.items = []

/-- A label at the end of the address space fails its statement if nothing is reserved there. -/
theorem place_of_start_eq {p : Step} (hitems : p.items = []) (hnamed : p.names ≠ [])
    (hstart : p.start = UInt32.size) :
    place p.statement p.before = .error (.addressSpaceExhausted p.area.shown) := by
  have harea := Step.area_eq_of_items_eq_nil hitems
  have haddress : p.after.address = .error (.addressSpaceExhausted p.after.current) :=
    Allocator.address_eq_error (by rw [← Step.start_eq_of_items_eq_nil hitems, hstart])
  obtain ⟨name, hlabel⟩ := Step.exists_label hitems hnamed
  simp only [place, p.known, p.applied, ok_bind, hlabel, hitems, labelled, haddress, harea]
  rfl

/-- An alignment to the end of the address space fails. -/
theorem place_of_alignUp_eq {d : Directive} {exponent : UInt32} {width : Width}
    (known : Directive.lookup s.directive = .ok d) (role : d.role = .align)
    (operands : s.operands = [.int exponent.toNat])
    (width_eq : Width.ofExponent exponent.toNat = .ok width)
    (room : width.alignUp a.active.offset ≤ a.active.region.capacity)
    (htop : a.active.region.base.toNat + width.alignUp a.active.offset = UInt32.size) :
    place s a = .error (.addressSpaceExhausted a.current) := by
  have hnumber : d.singleNumber .exponentOutOfRange s.operands = .ok exponent := by
    rw [operands, Directive.singleNumber, Directive.unsigned32?_toNat]
  have halign : a.align exponent.toNat = .error (.addressSpaceExhausted a.current) := by
    simp only [Allocator.align, width_eq, ok_bind, Cursor.align, if_neg (Nat.not_lt.mpr room),
      Cursor.addressAt, if_neg (Nat.not_lt.mpr htop.ge)]
    rfl
  simp only [place, known, ok_bind, Directive.apply, role, hnumber, halign]
  rfl

/-- A named piece that is reserved at the end of the address space does not fail the unit. -/
theorem SymbolsInside.nothingReservedAtTop (h : SymbolsInside m statements) :
    NothingReservedAtTop m statements := by
  intro index p hreaches hs hnamed hstart
  by_contra hitems
  have hfails := h.exhausted index p.before p.statement p.area hreaches hs
    (hstart ▸ .step p rfl rfl hnamed)
  rw [hreaches.layout_eq_error_iff hs] at hfails
  -- a piece stands for the names, so the next address is never asked for
  have hplaces : place p.statement p.before = .ok (p.bindings, p.after) :=
    place_eq_ok_iff_step.mpr ⟨p, rfl, rfl, fun _ hnil => absurd hnil hitems, rfl, rfl⟩
  rw [hplaces] at hfails
  cases hfails

/-- The names of a unit that is laid out denote addresses. -/
theorem NothingReservedAtTop.start_lt (h : NothingReservedAtTop m statements)
    {bindings : List Binding} {a : Allocator}
    (hplace : placeAll 0 statements (.fresh m) = .ok (bindings, a)) {p : Step}
    (hp : p ∈ steps statements (.fresh m)) (hnamed : p.names ≠ []) : p.start < UInt32.size := by
  by_cases hitems : p.items = []
  · obtain ⟨name, hlabel⟩ := Step.exists_label hitems hnamed
    obtain ⟨-, hlabelable, -⟩ := steps_of_placeAll hplace
    rw [Step.start_eq_of_items_eq_nil hitems]
    exact hlabelable p hp (by rw [hlabel]; rfl) hitems
  · obtain ⟨index, hreaches, hs⟩ := exists_reaches hplace hp
    obtain ⟨-, -, hend⟩ := Step.item_lies (within_of_mem_steps hp)
    have htop := m.areaRegion_end_le p.area
    have hne := mt (h index p hreaches hs hnamed) hitems
    omega

theorem NothingReservedAtTop.symbolsInside (h : NothingReservedAtTop m statements) :
    SymbolsInside m statements where
  inside := by
    intro u hu b hb
    obtain ⟨p, hp, hitem⟩ := exists_definition hu hb
    obtain ⟨⟨bindings, a⟩, hplace, -⟩ := map_eq_ok_iff.mp hu
    obtain ⟨hmem, hname⟩ := List.mem_filter.mp (List.mem_of_getLast? hp)
    have hnamed : p.names ≠ [] := List.ne_nil_of_mem (of_decide_eq_true hname)
    obtain ⟨haddress, hle, hend⟩ := Step.item_lies (within_of_mem_steps hmem)
    refine ⟨p, hp, hitem, ?_⟩
    rw [Allocation.finish, hitem, haddress,
      UInt32.toNat_ofNat_of_lt' (h.start_lt hplace hmem hnamed)]
    exact ⟨hle, hend⟩
  exhausted := by
    intro index a s area hreaches hs hdenotes
    rw [hreaches.layout_eq_error_iff hs]
    generalize htop : UInt32.size = address at hdenotes
    cases hdenotes with
    | step p statement before named =>
      subst statement before
      exact place_of_start_eq (h index p hreaches hs named htop.symm) named htop.symm
    | align known role operands width_eq labelled room =>
      exact place_of_alignUp_eq known role operands width_eq room htop.symm

/-! ## Regions that reach the end -/

/-- A statement that selects a segment. -/
def selecting (s : Segment) : Statement where
  label := none
  directive := match s with
    | .text => ".text"
    | .data => ".data"
    | .kernelText => ".ktext"
    | .kernelData => ".kdata"
  operands := []

/-- A statement with a label that reserves bytes in an area of data. -/
def reserving (area : Area) (bytes : UInt32) : Statement where
  label := some "x"
  directive := match area with
    | .segment _ => ".space"
    | .externs => ".extern"
  operands := match area with
    | .segment _ => [.int bytes.toNat]
    | .externs => [.text "x", .int bytes.toNat]

theorem exists_selecting (s : Segment) (a : Allocator) :
    ∃ p : Step, p.statement = selecting s ∧ p.before = a ∧ p.after = a.select s := by
  obtain ⟨d, hlookup, hrole⟩ : ∃ d, Directive.lookup (selecting s).directive = .ok d ∧
      d.role = .select s := by
    cases s with
    | text => exact ⟨Directive.catalogue[1], by decide +kernel, rfl⟩
    | data => exact ⟨Directive.catalogue[0], by decide +kernel, rfl⟩
    | kernelText => exact ⟨Directive.catalogue[13], by decide +kernel, rfl⟩
    | kernelData => exact ⟨Directive.catalogue[12], by decide +kernel, rfl⟩
  have hfulfil : a.fulfil (some (.select s)) = .ok ([], a.select s) := rfl
  obtain ⟨p, hs, ha, -, -, hafter⟩ :=
    Step.exists_of_request hlookup (Directive.request_select hrole) hfulfil
  exact ⟨p, hs, ha, hafter⟩

theorem exists_reserving {m : MemoryMap} {a : Allocator} (h : a.Within m) {area : Area}
    (hcurrent : a.current = area.shown) (hdata : area.shown.isText = false) (bytes : UInt32)
    (hroom : (a.areaCursor area).offset + bytes.toNat ≤ (a.areaCursor area).region.capacity) :
    ∃ p : Step, p.statement = reserving area bytes ∧ p.before = a ∧ p.area = area ∧
      p.items = [⟨area.shown, (a.areaCursor area).addressOf (a.areaCursor area).offset, bytes⟩] ∧
      p.after.current = area.shown ∧
      (p.after.areaCursor area).offset = (a.areaCursor area).offset + bytes.toNat := by
  obtain ⟨d, operation, hlookup, hrequest, htarget, hselected, hsize⟩ : ∃ d operation,
      Directive.lookup (reserving area bytes).directive = .ok d ∧
      d.request (reserving area bytes).operands a.current = .ok (some operation) ∧
      operation.target a.current = area ∧ operation.selected a.current = a.current ∧
      (operation = .reserve bytes ∨ operation = .reserveExtern bytes) := by
    cases area with
    | segment s =>
      have hlookup : Directive.lookup ".space" = .ok Directive.catalogue[8] := by decide +kernel
      exact ⟨_, .reserve bytes, hlookup, Directive.request_space rfl (hcurrent ▸ hdata),
        congrArg Area.segment hcurrent, rfl, .inl rfl⟩
    | externs =>
      have hlookup : Directive.lookup ".extern" = .ok Directive.catalogue[11] := by decide +kernel
      exact ⟨_, .reserveExtern bytes, hlookup, Directive.request_externs rfl "x", rfl, rfl,
        .inr rfl⟩
  have hperform : (a.areaCursor area).perform area.shown operation = .ok
      (.reserved ⟨area.shown, (a.areaCursor area).addressOf (a.areaCursor area).offset, bytes⟩,
        { a.areaCursor area with offset := (a.areaCursor area).offset + bytes.toNat }) := by
    rw [Cursor.perform_eq_ok_iff (h.bounded area)]
    rcases hsize with rfl | rfl
    · exact .reserve bytes hroom
    · exact .reserveExtern bytes hroom
  obtain ⟨p, hs, ha, hd, hitems, hafter⟩ := Step.exists_of_request hlookup hrequest
    ((a.fulfil_some_eq_ok_iff htarget).mpr ⟨_, _, hperform, rfl, rfl⟩)
  refine ⟨p, hs, ha, ?_, hitems, ?_, ?_⟩
  · rw [Step.area, hd, hafter, ← (Directive.asks_of_request hrequest).target_eq, htarget]
  · rw [hafter]
    exact hselected.trans hcurrent
  · rw [hafter, Allocator.areaCursor_selected, Allocator.areaCursor_setAreaCursor, if_pos rfl]

/-- Statements that reserve in an area fill it as far as it has room. -/
theorem placeAll_reserving {m : MemoryMap} {area : Area} (hdata : area.shown.isText = false)
    (sizes : List UInt32) (index : Nat) {a : Allocator} (h : a.Within m)
    (hcurrent : a.current = area.shown)
    (hroom : (a.areaCursor area).offset + (sizes.map UInt32.toNat).sum ≤
      (m.areaRegion area).capacity) :
    ∃ bindings a', placeAll index (sizes.map (reserving area)) a = .ok (bindings, a') ∧
      a'.Within m ∧ a'.current = area.shown ∧
      (a'.areaCursor area).offset =
        (a.areaCursor area).offset + (sizes.map UInt32.toNat).sum := by
  induction sizes generalizing index a with
  | nil => exact ⟨[], a, rfl, h, hcurrent, rfl⟩
  | cons bytes sizes ih =>
    rw [List.map_cons, List.sum_cons] at hroom
    obtain ⟨p, hs, rfl, -, hitems, hafter, hoffset⟩ :=
      exists_reserving h hcurrent hdata bytes (by rw [h.region_eq]; omega)
    obtain ⟨bindings, a', hplace, hwithin, hcurrent', hoffset'⟩ :=
      ih (index + 1) (Step.within h) hafter (by omega)
    have hlabelable : p.Labelable := fun _ hnil => by
      rw [hitems] at hnil
      cases hnil
    refine ⟨_, a', placeAll_cons_eq_ok_iff_step.mpr ⟨p, bindings, hs, rfl, hlabelable, hplace, rfl⟩,
      hwithin, hcurrent', ?_⟩
    rw [hoffset', hoffset, List.map_cons, List.sum_cons, Nat.add_assoc]

/-- Operands add up even to the size of the address space, though none is as large. -/
theorem exists_sizes {n : Nat} (h : n ≤ UInt32.size) :
    ∃ sizes : List UInt32, (sizes.map UInt32.toNat).sum = n := by
  simp only [UInt32.size] at h
  have hfirst : (UInt32.ofNat (n / 2)).toNat = n / 2 :=
    UInt32.toNat_ofNat_of_lt' (by simp only [UInt32.size]; omega)
  have hsecond : (UInt32.ofNat (n - n / 2)).toNat = n - n / 2 :=
    UInt32.toNat_ofNat_of_lt' (by simp only [UInt32.size]; omega)
  refine ⟨[UInt32.ofNat (n / 2), UInt32.ofNat (n - n / 2)], ?_⟩
  simp only [List.map_cons, List.map_nil, List.sum_cons, List.sum_nil, hfirst, hsecond]
  omega

/-- There are statements that fill an area of data to its end. -/
theorem exists_filling (m : MemoryMap) {area : Area} (hdata : area.shown.isText = false) :
    ∃ statements bindings a, placeAll 0 statements (.fresh m) = .ok (bindings, a) ∧
      a.Within m ∧ a.current = area.shown ∧
      (a.areaCursor area).offset = (m.areaRegion area).capacity := by
  obtain ⟨sizes, hsum⟩ :=
    exists_sizes (Nat.le_trans (Nat.le_add_left _ _) (m.areaRegion_end_le area))
  obtain ⟨p, hs, hfresh, hafter⟩ := exists_selecting area.shown (.fresh m)
  have hwithin : p.after.Within m := Step.within (hfresh ▸ Allocator.within_fresh m)
  have hoffset : (p.after.areaCursor area).offset = 0 := by
    rw [hafter, Allocator.areaCursor_select, Allocator.areaCursor_fresh]
    split
    · exact congrArg Cursor.offset (Allocator.areaCursor_fresh m (.segment area.shown))
    · rfl
  have hlabelable : p.Labelable := fun hlabel => by
    rw [hs] at hlabel
    cases hlabel
  obtain ⟨bindings, a, hplace, ha, hcurrent, hfilled⟩ := placeAll_reserving hdata sizes 1 hwithin
    (by rw [hafter]; rfl) (by rw [hoffset, hsum, Nat.zero_add])
  rw [hoffset, hsum, Nat.zero_add] at hfilled
  exact ⟨selecting area.shown :: sizes.map (reserving area), _, a,
    placeAll_cons_eq_ok_iff_step.mpr ⟨p, bindings, hs, hfresh, hlabelable, hplace, rfl⟩, ha,
    hcurrent, hfilled⟩

theorem dataBelowTop_of_nothingReservedAtTop (h : ∀ statements, NothingReservedAtTop m statements) :
    m.DataBelowTop := by
  intro area hdata
  by_contra hreach
  have hend := m.areaRegion_end_le area
  -- where the region is full up to the end of the address space, an empty piece still has room
  obtain ⟨filling, bindings, a, hplace, ha, hcurrent, hfull⟩ := exists_filling m hdata
  obtain ⟨p, hs, rfl, harea, hitems, -, hoffset⟩ :=
    exists_reserving ha hcurrent hdata 0 (by rw [hfull, ha.region_eq]; rfl)
  have hreaches : Reaches m (filling ++ [reserving area 0]) filling.length p.before := by
    rw [Reaches, List.take_left]
    exact ⟨bindings, hplace⟩
  have hstart : p.start = UInt32.size := by
    rw [Step.start, harea, hoffset, hfull, (Step.within ha).region_eq, hitems]
    exact Nat.le_antisymm hend (Nat.not_lt.mp hreach)
  have hnamed : p.names ≠ [] := by
    rw [Step.names, hs]
    simp [reserving]
  have hnothing := h _ filling.length p hreaches (by simp [hs]) hnamed hstart
  rw [hitems] at hnothing
  cases hnothing

theorem nothingReservedAtTop_of_dataBelowTop (h : m.DataBelowTop) (statements : List Statement) :
    NothingReservedAtTop m statements := by
  intro index p ⟨_, hbefore⟩ _ _ hstart
  have hwithin := within_of_placeAll (Allocator.within_fresh m) hbefore
  obtain ⟨-, -, hend⟩ := Step.item_lies hwithin
  by_contra hitems
  have hbelow := h p.area (Step.isText_area hwithin hitems)
  omega

/-- Whatever the map, the symbols of a unit are safe from wrapping around exactly if no statement
with a name reserves a piece at the end of the address space, which can only be an empty one. The
maps under which those of all units are safe are the ones whose regions of data end before. -/
theorem symbolsInside_iff (m : MemoryMap) :
    (∀ statements, SymbolsInside m statements ↔ NothingReservedAtTop m statements) ∧
      ((∀ statements, SymbolsInside m statements) ↔ m.DataBelowTop) := by
  refine ⟨fun statements => ⟨(·.nothingReservedAtTop), (·.symbolsInside)⟩, fun h => ?_,
    fun h statements => ?_⟩
  · exact dataBelowTop_of_nothingReservedAtTop fun statements => (h statements).nothingReservedAtTop
  · exact (nothingReservedAtTop_of_dataBelowTop h statements).symbolsInside

/-- Kernel data filled to the end of the address space, and then an empty piece with a name: the
unit is laid out, and the name points to zero. -/
theorem symbol_wraps_around :
    let m : MemoryMap := { MemoryMap.standard with kdata := ⟨0xfffffff0, 0xffffffff⟩ }
    let statements : List Statement :=
      [⟨none, ".kdata", []⟩, ⟨none, ".space", [.int 16]⟩, ⟨some "end", ".space", [.int 0]⟩]
    m.defect? = none ∧
      (∃ u, layout m statements = .ok u ∧ u.table.symbols = [⟨"end", .kernelData, 0, 0⟩]) ∧
      ¬ SymbolsInside m statements := by
  intro m statements
  have hsymbols : (layout m statements).toOption.map (·.table.symbols) =
      some [⟨"end", .kernelData, 0, 0⟩] := by decide +kernel
  have harea : (definition? m statements "end").map Step.area = some (.segment .kernelData) := by
    decide +kernel
  cases hu : layout m statements with
  | error failure =>
    rw [hu] at hsymbols
    cases hsymbols
  | ok u =>
    rw [hu] at hsymbols
    have htable : u.table.symbols = [⟨"end", .kernelData, 0, 0⟩] := Option.some.inj hsymbols
    refine ⟨rfl, ⟨u, rfl, htable⟩, fun h => ?_⟩
    obtain ⟨p, hp, -, hle, -⟩ := h.inside u hu ⟨"end", .kernelData, 0, 0⟩ (by simp [htable])
    rw [hp] at harea
    rw [Option.some.inj harea] at hle
    exact absurd hle (by decide)

end Assembly

end MipsMemory
