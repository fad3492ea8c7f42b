import MipsMemory.Proofs.Allocator.Relocation
import MipsMemory.Proofs.Assembly.Steps

/-!
Units under another map. Main statement: a unit that is laid out under a map is laid out under every
other one with as much room, with the same names in the same order and each symbol at the same
distance from the base of its region, as long as no region of either map reaches the end of the
address space.
-/

namespace MipsMemory

namespace Assembly

variable {m n : MemoryMap} {statements : List Statement} {index : Nat} {a a' b : Allocator}
  {bindings : List Binding}

/-! ## One step -/

/-- The second step does under another map what the first one does. -/
structure Step.Moved (m n : MemoryMap) (p q : Step) : Prop where
  names_eq : q.names = p.names
  area_eq : q.area = p.area
  item : MipsMemory.Moved (m.areaRegion p.area) (n.areaRegion p.area) p.item q.item

namespace Step

variable {p q : Step}

/-- Where no region reaches the end of the address space, there always is a next address. -/
theorem labelable_of_belowTop (hm : m.BelowTop) (h : p.after.Within m) : p.Labelable := by
  intro _ _
  have hroom := (h.bounded (.segment p.after.current)).offset_le
  have htop := hm (.segment p.after.current)
  rw [← h.region_eq] at htop
  exact Nat.lt_of_le_of_lt (Nat.add_le_add_left hroom _) htop

theorem names_eq_of_statement_eq (hs : q.statement = p.statement) (hd : q.directive = p.directive) :
    q.names = p.names := by
  simp only [names, declaredName?, hs, hd]

/-- A request that is carried out is carried out by an allocator that is alike. -/
theorem exists_alike (hm : m.BelowTop) (hn : n.BelowTop) (ha : p.before.Within m)
    (hb : b.Within n) (h : p.before.Alike b) : ∃ q : Step, q.statement = p.statement ∧
      q.before = b ∧ q.directive = p.directive ∧ p.after.Alike q.after ∧
      List.Forall₂ (MipsMemory.Moved (m.areaRegion p.area) (n.areaRegion p.area))
        p.items q.items := by
  rcases moves ha with ⟨hrequest, hitems, hafter⟩ |
    ⟨operation, outcome, c, hrequest, htarget, hadvances, hitems, hafter⟩
  · rw [← h.current_eq] at hrequest
    have hfulfil : b.fulfil none = .ok ([], b) := rfl
    obtain ⟨q, hs, hbefore, hd, hqitems, hqafter⟩ := exists_of_request p.known hrequest hfulfil
    rw [hitems, hafter]
    refine ⟨q, hs, hbefore, hd, ?_, ?_⟩
    · rw [hqafter]
      exact h
    · rw [hqitems]
      exact .nil
  · have hroom := hm p.area
    have hroom' := hn p.area
    rw [← ha.region_eq] at hroom
    rw [← hb.region_eq] at hroom'
    obtain ⟨outcome', d, hadvances', halike, hmoved⟩ :=
      hadvances.alike (h.cursor p.area) hroom hroom' (ha.bounded p.area)
    rw [← h.current_eq] at hrequest htarget
    have hfulfil := (b.fulfil_some_eq_ok_iff htarget).mpr
      ⟨outcome', d, (Cursor.perform_eq_ok_iff (hb.bounded p.area)).mpr hadvances', rfl, rfl⟩
    obtain ⟨q, hs, hbefore, hd, hqitems, hqafter⟩ := exists_of_request p.known hrequest hfulfil
    refine ⟨q, hs, hbefore, hd, ?_, ?_⟩
    · rw [hafter, hqafter, h.current_eq]
      exact h.setAreaCursor halike p.area _
    · rw [hitems, hqitems, ← ha.region_eq, ← hb.region_eq]
      exact hmoved

/-- The names of such a step stand for the same piece. -/
theorem moved_of_alike (hm : m.BelowTop) (hn : n.BelowTop) (hp : p.after.Within m)
    (hq : q.after.Within n) (hs : q.statement = p.statement) (hd : q.directive = p.directive)
    (h : p.after.Alike q.after)
    (hitems : List.Forall₂ (MipsMemory.Moved (m.areaRegion p.area) (n.areaRegion p.area))
      p.items q.items) : Moved m n p q where
  names_eq := names_eq_of_statement_eq hs hd
  area_eq := by rw [area, area, hd, h.current_eq]
  item := by
    cases hpitems : p.items with
    | nil =>
      have hqitems : q.items = [] := by
        rw [hpitems] at hitems
        exact List.forall₂_nil_left_iff.mp hitems
      have hactive : q.after.active = q.after.areaCursor (.segment p.after.current) := by
        rw [← h.current_eq]
        rfl
      have hcursor := h.cursor (.segment p.after.current)
      rw [item_eq_of_items_eq_nil hpitems, item_eq_of_items_eq_nil hqitems, h.current_eq,
        area_eq_of_items_eq_nil hpitems, hactive, hcursor.offset_eq, ← hp.region_eq,
        ← hq.region_eq]
      refine hcursor.moved ?_ ?_ (hp.bounded _).offset_le 0
      · rw [hp.region_eq]
        exact hm _
      · rw [hq.region_eq]
        exact hn _
    | cons x xs =>
      rw [hpitems] at hitems
      obtain ⟨y, ys, hxy, -, hqitems⟩ := List.forall₂_cons_left_iff.mp hitems
      rw [item, item, hpitems, hqitems]
      exact hxy

end Step

/-! ## Units -/

/-- Statements that are carried out are carried out by an allocator that is alike, step by step. -/
theorem placeAll_alike (hm : m.BelowTop) (hn : n.BelowTop) (ha : a.Within m) (hb : b.Within n)
    (h : a.Alike b) (hplace : placeAll index statements a = .ok (bindings, a')) :
    ∃ bindings' b', placeAll index statements b = .ok (bindings', b') ∧ a'.Alike b' ∧
      List.Forall₂ (Step.Moved m n) (steps statements a) (steps statements b) := by
  induction statements generalizing index a b bindings with
  | nil =>
    cases hplace
    exact ⟨[], b, rfl, h, .nil⟩
  | cons s rest ih =>
    obtain ⟨p, later, rfl, rfl, -, hrest, -⟩ := placeAll_cons_eq_ok_iff_step.mp hplace
    obtain ⟨q, hs, rfl, hd, halike, hitems⟩ := Step.exists_alike hm hn ha hb h
    have hp := Step.within ha
    have hq := Step.within hb
    have hlabelable := Step.labelable_of_belowTop hn hq
    obtain ⟨later', b', hplace', hend, hsteps⟩ := ih hp hq halike hrest
    refine ⟨_, b', placeAll_cons_eq_ok_iff_step.mpr ⟨q, later', hs, rfl, hlabelable, hplace', rfl⟩,
      hend, ?_⟩
    rw [steps_cons, ← hs, steps_cons]
    exact .cons (Step.moved_of_alike hm hn hp hq hs hd halike hitems) hsteps

/-- Steps that do the same under two maps bind the same names. -/
theorem names_of_moved {ps qs : List Step} (h : List.Forall₂ (Step.Moved m n) ps qs) :
    (qs.flatMap Step.bindings).map Binding.name = (ps.flatMap Step.bindings).map Binding.name := by
  induction h with
  | nil => rfl
  | cons hpq _ ih =>
    simp only [List.flatMap_cons, List.map_append, ih, Step.bindings, hpq.names_eq, List.map_map,
      Function.comp_def]

/-- And the last of them that binds a name is the same for both. -/
theorem getLast?_filter_of_moved {ps qs : List Step} (h : List.Forall₂ (Step.Moved m n) ps qs)
    {name : String} {p q : Step} (hp : (ps.filter (name ∈ ·.names)).getLast? = some p)
    (hq : (qs.filter (name ∈ ·.names)).getLast? = some q) : Step.Moved m n p q := by
  have hfilter : List.Forall₂ (Step.Moved m n) (ps.filter (name ∈ ·.names))
      (qs.filter (name ∈ ·.names)) := by
    refine List.rel_filter (fun p q hpq => ?_) h
    simp only [hpq.names_eq]
  rw [List.getLast?_eq_head?_reverse] at hp hq
  have hreverse := List.forall₂_reverse_iff.mpr hfilter
  generalize (ps.filter (name ∈ ·.names)).reverse = rs at hp hreverse
  generalize (qs.filter (name ∈ ·.names)).reverse = ss at hq hreverse
  cases hreverse with
  | nil => cases hp
  | cons hpq _ =>
    cases hp
    cases hq
    exact hpq

/-- A symbol under one map is the same under another: in the same area, at the same distance from its
base. -/
structure SameSymbol (m n : MemoryMap) (statements : List Statement) (x y : Binding) : Prop where
  name_eq : y.name = x.name
  segment_eq : y.item.segment = x.item.segment
  size_eq : y.item.size = x.item.size
  distance : ∃ p q, definition? m statements x.name = some p ∧ x.item = p.item ∧
    definition? n statements y.name = some q ∧ y.item = q.item ∧ q.area = p.area ∧
    ∃ distance, x.item.address.toNat = (m.areaRegion p.area).base.toNat + distance ∧
      y.item.address.toNat = (n.areaRegion q.area).base.toNat + distance

theorem sameSymbol_of_moved {x y : Binding} (hname : y.name = x.name) {p q : Step}
    (hp : definition? m statements x.name = some p) (hx : x.item = p.item)
    (hq : definition? n statements y.name = some q) (hy : y.item = q.item)
    (h : Step.Moved m n p q) : SameSymbol m n statements x y where
  name_eq := hname
  segment_eq := by rw [hx, hy, h.item.segment_eq]
  size_eq := by rw [hx, hy, h.item.size_eq]
  distance := by
    obtain ⟨distance, haddress, haddress'⟩ := h.item.distance
    refine ⟨p, q, hp, hx, hq, hy, h.area_eq, distance, ?_, ?_⟩
    · rw [hx, haddress]
    · rw [hy, haddress', h.area_eq]

/-- A unit that is laid out under a map is laid out alike under every map with as much room in each
region, wherever the regions of either map are, as long as they end below the top. -/
theorem layout_relocates {u : Assembled} (hm : m.BelowTop) (hn : n.BelowTop)
    (hroom : m.FitsInto n) (hu : layout m statements = .ok u) :
    ∃ v, layout n statements = .ok v ∧ (∀ s, v.layout.used.get s = u.layout.used.get s) ∧
      v.layout.externUsed = u.layout.externUsed ∧ v.table.redefined = u.table.redefined ∧
      List.Forall₂ (SameSymbol m n statements) u.table.symbols v.table.symbols := by
  obtain ⟨⟨bindings, a⟩, hplace, rfl⟩ := map_eq_ok_iff.mp hu
  obtain ⟨bindings', b, hplace', halike, hsteps⟩ := placeAll_alike hm hn (Allocator.within_fresh m)
    (Allocator.within_fresh n) (Allocator.alike_fresh hroom) hplace
  have hv : layout n statements = .ok ⟨bindings', b.finish⟩ := by
    rw [layout, hplace']
    rfl
  have hrecords := SymbolTable.records_ofBindings bindings
  have hrecords' := SymbolTable.records_ofBindings bindings'
  have hnames : bindings'.map Binding.name = bindings.map Binding.name := by
    obtain ⟨-, -, rfl⟩ := steps_of_placeAll hplace
    obtain ⟨-, -, rfl⟩ := steps_of_placeAll hplace'
    exact names_of_moved hsteps
  refine ⟨_, hv, fun s => ?_, (halike.cursor .externs).offset_eq, ?_, ?_⟩
  · simp only [Allocator.finish, PerSegment.get_ofFn]
    exact (halike.cursor (.segment s)).offset_eq
  · exact hrecords'.redefined.trans (hnames ▸ hrecords.redefined.symm)
  · -- both tables list the same names, so their symbols correspond one by one
    have hsymbols : List.Forall₂ (fun x y : Binding => y.name = x.name)
        (SymbolTable.ofBindings bindings).symbols (SymbolTable.ofBindings bindings').symbols := by
      have hsame := hrecords'.names.trans (hnames ▸ hrecords.names.symm)
      rw [← List.forall₂_eq_eq_eq, SymbolTable.names, SymbolTable.names,
        List.forall₂_map_left_iff, List.forall₂_map_right_iff] at hsame
      exact hsame.flip
    refine List.forall₂_iff_zip.mpr ⟨hsymbols.length_eq, fun {x y} hxy => ?_⟩
    have hname := List.forall₂_zip hsymbols hxy
    obtain ⟨hx, hy⟩ := List.of_mem_zip hxy
    obtain ⟨p, hp, hxitem⟩ := exists_definition hu hx
    obtain ⟨q, hq, hyitem⟩ := exists_definition hv hy
    have hmoved := getLast?_filter_of_moved hsteps hp (hname ▸ hq)
    exact sameSymbol_of_moved hname hp hxitem hq hyitem hmoved

/-- From a compact map to a larger one, whose bases of kernel data and of the externs are odd. The
halfword keeps its distance from the base, and so does what is declared anew as an extern. -/
theorem layout_relocates_odd :
    let m := MemoryMap.compactTextAtZero
    let n : MemoryMap := { MemoryMap.standard with
      externs := ⟨0x10000003, 0x1000ffff⟩, kdata := ⟨0x90000001, 0xfffeffff⟩ }
    let statements : List Statement :=
      [⟨some "start", ".kdata", []⟩, ⟨some "b", ".byte", [.int 1]⟩, ⟨some "h", ".half", [.int 2]⟩,
        ⟨some "b", ".extern", [.text "x", .int 3]⟩]
    (m.BelowTop ∧ n.BelowTop ∧ m.FitsInto n) ∧
      ∃ u v, layout m statements = .ok u ∧ layout n statements = .ok v ∧
        List.Forall₂ (SameSymbol m n statements) u.table.symbols v.table.symbols ∧
        v.table.redefined = u.table.redefined ∧
        u.table = ⟨[⟨"start", .kernelData, 0x5000, 0⟩, ⟨"b", .data, 0x1000, 3⟩,
          ⟨"h", .kernelData, 0x5002, 2⟩, ⟨"x", .data, 0x1000, 3⟩], ["b"]⟩ ∧
        v.table.symbols = [⟨"start", .kernelData, 0x90000001, 0⟩, ⟨"b", .data, 0x10000003, 3⟩,
          ⟨"h", .kernelData, 0x90000003, 2⟩, ⟨"x", .data, 0x10000003, 3⟩] := by
  intro m n statements
  have hm : m.BelowTop := by
    intro area
    cases area with
    | segment s => cases s <;> decide
    | externs => decide
  have hn : n.BelowTop := by
    intro area
    cases area with
    | segment s => cases s <;> decide
    | externs => decide
  have hroom : m.FitsInto n := by
    intro area
    cases area with
    | segment s => cases s <;> decide
    | externs => decide
  have hut : (layout m statements).toOption.map Assembled.table =
      some ⟨[⟨"start", .kernelData, 0x5000, 0⟩, ⟨"b", .data, 0x1000, 3⟩,
        ⟨"h", .kernelData, 0x5002, 2⟩, ⟨"x", .data, 0x1000, 3⟩], ["b"]⟩ := by decide +kernel
  have hvt : (layout n statements).toOption.map (·.table.symbols) =
      some [⟨"start", .kernelData, 0x90000001, 0⟩, ⟨"b", .data, 0x10000003, 3⟩,
        ⟨"h", .kernelData, 0x90000003, 2⟩, ⟨"x", .data, 0x10000003, 3⟩] := by decide +kernel
  refine ⟨⟨hm, hn, hroom⟩, ?_⟩
  cases hu : layout m statements with
  | error failure =>
    rw [hu] at hut
    cases hut
  | ok u =>
    obtain ⟨v, hv, -, -, hredefined, hsymbols⟩ := layout_relocates hm hn hroom hu
    rw [hu] at hut
    rw [hv] at hvt
    exact ⟨u, v, rfl, hv, hsymbols, hredefined, Option.some.inj hut, Option.some.inj hvt⟩

end Assembly

end MipsMemory
