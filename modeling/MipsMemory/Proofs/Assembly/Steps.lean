import MipsMemory.Proofs.Allocator.Advance
import MipsMemory.Proofs.Assembly.Requests
import MipsMemory.Proofs.Assembly.Symbols

/-!
A unit step by step. A step is a statement whose directive is carried out, with the allocator before
and after it; all names that it binds stand for one piece of memory, which lies in one area. Main
statements: what a step reserves lies without gaps right before where it leaves its area, statements
are carried out exactly if each has a step and every label has an address to stand for, and a symbol
is what the last step that names it has placed.
-/

namespace MipsMemory

namespace Allocator

/-- The areas are those of a map, and filled within their bounds. -/
structure Within (m : MemoryMap) (a : Allocator) : Prop where
  region_eq : ∀ area, (a.areaCursor area).region = m.areaRegion area
  bounded : ∀ area, (a.areaCursor area).Bounded

theorem within_fresh (m : MemoryMap) : (fresh m).Within m where
  region_eq area := by rw [areaCursor_fresh]; rfl
  bounded := areaCursor_fresh_bounded m

end Allocator

namespace Assembly

/-- A statement whose directive is carried out. -/
structure Step where
  statement : Statement
  directive : Directive
  before : Allocator
  items : List Allocation
  after : Allocator
  known : Directive.lookup statement.directive = .ok directive
  applied : directive.apply statement.operands before = .ok (items, after)

namespace Step

/-- Where the names of a step point: into the extern area from an extern declaration, and from any
other statement into the segment that is selected after it. -/
def area (p : Step) : Area :=
  if p.directive.role = .declare .externs then .externs else .segment p.after.current

/-- The name that an extern declaration gives. -/
def declaredName? (p : Step) : Option String :=
  match p.directive.role, p.statement.operands with
  | .declare .externs, .text name :: _ => some name
  | _, _ => none

/-- The names that are bound, in order. -/
def names (p : Step) : List String := p.declaredName?.toList ++ p.statement.label.toList

/-- What the names stand for: the first piece that the step reserves, or else nothing at the next
address. -/
def item (p : Step) : Allocation :=
  p.items.headD ⟨p.after.current, p.after.active.addressOf p.after.active.offset, 0⟩

/-- The names that a step binds, all to its item. -/
def bindings (p : Step) : List Binding := p.names.map (⟨·, p.item⟩)

/-- A label on a step that reserves nothing needs a next address. -/
def Labelable (p : Step) : Prop :=
  p.statement.label.isSome → p.items = [] →
    p.after.active.region.base.toNat + p.after.active.offset < UInt32.size

theorem requested (p : Step) : ∃ r,
    p.directive.request p.statement.operands p.before.current = .ok r ∧
      p.before.fulfil r = .ok (p.items, p.after) := by
  have happlied := p.applied
  rw [Directive.apply_eq] at happlied
  exact bind_eq_ok_iff.mp happlied

/-- A request that is carried out makes a step. -/
theorem exists_of_request {s : Statement} {d : Directive} {a a' : Allocator}
    {r : Option Allocator.Operation} {items : List Allocation}
    (known : Directive.lookup s.directive = .ok d)
    (hrequest : d.request s.operands a.current = .ok r) (hfulfil : a.fulfil r = .ok (items, a')) :
    ∃ p : Step, p.statement = s ∧ p.before = a ∧ p.directive = d ∧ p.items = items ∧
      p.after = a' := by
  have applied : d.apply s.operands a = .ok (items, a') := by
    rw [Directive.apply_eq, hrequest]
    exact hfulfil
  exact ⟨⟨s, d, a, items, a', known, applied⟩, rfl, rfl, rfl, rfl, rfl⟩

theorem within {p : Step} {m : MemoryMap} (h : p.before.Within m) : p.after.Within m := by
  rcases Directive.apply_performs p.applied with ⟨-, hafter⟩ | ⟨operation, outcome, hperform, -⟩
  · rw [hafter]
    exact h
  · have heffect (area : Area) := Allocator.step_effect (h.bounded area).capacity_le operation
    rw [Allocator.step_of_ok hperform] at heffect
    exact ⟨fun area => (heffect area).region_eq.trans (h.region_eq area),
      fun area => ((heffect area).bounded (h.bounded area)).1⟩

/-- What a step asks for, if anything, advances the cursor of its area and no other. -/
theorem moves {p : Step} {m : MemoryMap} (h : p.before.Within m) :
    (p.directive.request p.statement.operands p.before.current = .ok none ∧ p.items = [] ∧
        p.after = p.before) ∨
      ∃ operation outcome c,
        p.directive.request p.statement.operands p.before.current = .ok (some operation) ∧
        operation.target p.before.current = p.area ∧
        (p.before.areaCursor p.area).Advances p.area.shown operation outcome c ∧
        p.items = Allocator.answered (.ok outcome) ∧
        p.after = { p.before.setAreaCursor p.area c with
          current := operation.selected p.before.current } := by
  obtain ⟨r, hrequest, hfulfil⟩ := p.requested
  cases r with
  | none =>
    obtain ⟨hitems, hafter⟩ := Prod.mk.inj (Except.ok.inj hfulfil)
    exact .inl ⟨hrequest, hitems.symm, hafter.symm⟩
  | some operation =>
    have htarget : operation.target p.before.current = p.area := by
      obtain ⟨_, _, -, -, hafter⟩ := (Allocator.fulfil_some_eq_ok_iff _ rfl).mp hfulfil
      rw [(Directive.asks_of_request hrequest).target_eq, area, hafter]
    obtain ⟨outcome, c, hperform, hitems, hafter⟩ :=
      (Allocator.fulfil_some_eq_ok_iff _ htarget).mp hfulfil
    exact .inr ⟨operation, outcome, c, hrequest, htarget,
      (Cursor.perform_eq_ok_iff (h.bounded _)).mp hperform, hitems, hafter⟩

theorem offset_after {p : Step} {c : Cursor} {current : Segment}
    (hafter : p.after = { p.before.setAreaCursor p.area c with current := current })
    (area : Area) : (p.after.areaCursor area).offset =
      if area = p.area then c.offset else (p.before.areaCursor area).offset := by
  rw [hafter, Allocator.areaCursor_selected, Allocator.areaCursor_setAreaCursor]
  split <;> rfl

/-- What a step reserves lies without gaps right before where it leaves its area. -/
theorem extent {p : Step} {m : MemoryMap} (h : p.before.Within m) :
    ∃ first, (p.before.areaCursor p.area).offset ≤ first ∧
      Consecutive (m.areaRegion p.area) first p.items ∧
      (p.after.areaCursor p.area).offset = first + totalSize p.items := by
  rcases moves h with ⟨-, hitems, hafter⟩ | ⟨operation, outcome, c, -, -, hadvances, hitems, hafter⟩
  · rw [hitems, hafter]
    exact ⟨_, Nat.le_refl _, trivial, rfl⟩
  · obtain ⟨first, hle, hconsecutive, hoffset⟩ := hadvances.extent (h.bounded _)
    rw [h.region_eq, ← hitems] at hconsecutive
    rw [← hitems] at hoffset
    refine ⟨first, hle, hconsecutive, ?_⟩
    rw [offset_after hafter, if_pos rfl, hoffset]

/-! ### Steps that reserve nothing -/

theorem role_ne_externs {p : Step} (h : p.items = []) : p.directive.role ≠ .declare .externs := by
  intro hrole
  obtain ⟨_, _, _, -, hitems⟩ := Directive.shape_of_apply_externs hrole p.applied
  rw [h] at hitems
  cases hitems

theorem area_eq_of_items_eq_nil {p : Step} (h : p.items = []) :
    p.area = .segment p.after.current := by
  rw [area, if_neg (role_ne_externs h)]

theorem item_eq_of_items_eq_nil {p : Step} (h : p.items = []) :
    p.item = ⟨p.after.current, p.after.active.addressOf p.after.active.offset, 0⟩ := by
  rw [item, h]
  rfl

end Step

/-! ## Statements as steps -/

/-- The step a statement makes, if its directive is known and can be carried out. -/
def step? (s : Statement) (a : Allocator) : Option Step :=
  match known : Directive.lookup s.directive with
  | .error _ => none
  | .ok d =>
    match applied : d.apply s.operands a with
    | .error _ => none
    | .ok (items, after) => some ⟨s, d, a, items, after, known, applied⟩

/-- The steps of statements that are carried out in turn, up to the first that has none. -/
def steps : List Statement → Allocator → List Step
  | [], _ => []
  | s :: rest, a =>
    match step? s a with
    | none => []
    | some p => p :: steps rest p.after

/-- The step that a name of a unit stands for is the last one that binds it. -/
def definition? (m : MemoryMap) (statements : List Statement) (name : String) : Option Step :=
  ((steps statements (.fresh m)).filter (name ∈ ·.names)).getLast?

variable {s : Statement} {a a' : Allocator} {bindings : List Binding} {p : Step} {index : Nat}
  {statements : List Statement}

theorem step?_eq_some_iff :
    step? s a = some p ↔ p.statement = s ∧ p.before = a := by
  constructor
  · intro h
    unfold step? at h
    split at h
    · cases h
    · split at h
      · cases h
      · cases h
        exact ⟨rfl, rfl⟩
  · rintro ⟨rfl, rfl⟩
    obtain ⟨s, d, a, items, a', known, applied⟩ := p
    unfold step?
    split
    · rename_i hlookup
      simp only [known] at hlookup
      cases hlookup
    · rename_i d' hlookup
      simp only [known] at hlookup
      cases hlookup
      split
      · rename_i happly
        simp only [applied] at happly
        cases happly
      · rename_i happly
        simp only [applied] at happly
        cases happly
        rfl

theorem steps_cons (p : Step) (rest : List Statement) :
    steps (p.statement :: rest) p.before = p :: steps rest p.after := by
  have hp : step? p.statement p.before = some p := step?_eq_some_iff.mpr ⟨rfl, rfl⟩
  simp only [steps, hp]

/-- What statements reserve is what their steps do. -/
theorem reserved_eq_flatMap_steps (statements : List Statement) (a : Allocator) :
    reserved statements a = (steps statements a).flatMap Step.items := by
  induction statements generalizing a with
  | nil => rfl
  | cons s rest ih =>
    cases hstep : step? s a with
    | some p =>
      obtain ⟨rfl, rfl⟩ := step?_eq_some_iff.mp hstep
      rw [steps_cons, List.flatMap_cons, ← ih]
      simp only [reserved, p.known, p.applied, Except.bind]
    | none =>
      cases happly : (Directive.lookup s.directive).bind (·.apply s.operands a) with
      | error e =>
        simp only [reserved, steps, happly, hstep]
        rfl
      | ok result =>
        obtain ⟨d, known, applied⟩ := bind_eq_ok_iff.mp happly
        let p : Step := ⟨s, d, a, result.1, result.2, known, applied⟩
        have hp : step? s a = some p := step?_eq_some_iff.mpr ⟨rfl, rfl⟩
        rw [hstep] at hp
        cases hp

namespace Step

theorem declared_eq (p : Step) :
    declared p.directive p.statement.operands p.items =
      p.declaredName?.toList.map (⟨·, p.item⟩) := by
  unfold declared declaredName?
  cases hrole : p.directive.role with
  | declare symbol =>
    cases symbol with
    | externs =>
      obtain ⟨name, size, item, hoperands, hitems⟩ :=
        Directive.shape_of_apply_externs hrole p.applied
      simp only [hoperands, hitems, Step.item]
      rfl
    | global | equate => rfl
  | select | emit | align | macroBegin | macroEnd | includeFile | ignored => rfl

theorem labelled_eq_ok_iff {labels : List Binding} (p : Step) :
    labelled p.statement.label p.items p.after = .ok labels ↔
      p.Labelable ∧ labels = p.statement.label.toList.map (⟨·, p.item⟩) := by
  unfold labelled Labelable item
  cases p.statement.label with
  | none => simp [eq_comm]
  | some name =>
    cases hitems : p.items with
    | cons x xs => simp [eq_comm]
    | nil =>
      simp only [map_eq_ok_iff, Allocator.address_eq_ok_iff]
      constructor
      · rintro ⟨_, ⟨htop, rfl⟩, rfl⟩
        exact ⟨fun _ _ => htop, rfl⟩
      · rintro ⟨htop, rfl⟩
        exact ⟨_, ⟨htop rfl trivial, rfl⟩, rfl⟩

end Step

/-- A statement is carried out if it has a step whose label has an address to stand for. -/
theorem place_eq_ok_iff_step :
    place s a = .ok (bindings, a') ↔
      ∃ p : Step, p.statement = s ∧ p.before = a ∧ p.Labelable ∧
        bindings = p.bindings ∧ a' = p.after := by
  have hbindings (p : Step) : p.bindings =
      declared p.directive p.statement.operands p.items ++
        p.statement.label.toList.map (⟨·, p.item⟩) := by
    rw [p.declared_eq, ← List.map_append]
    rfl
  constructor
  · intro h
    obtain ⟨d, items, labels, known, applied, hlabels, rfl⟩ := place_eq_ok_iff.mp h
    let p : Step := ⟨s, d, a, items, a', known, applied⟩
    obtain ⟨hlabelable, rfl⟩ := p.labelled_eq_ok_iff.mp hlabels
    exact ⟨p, rfl, rfl, hlabelable, (hbindings p).symm, rfl⟩
  · rintro ⟨p, rfl, rfl, hlabelable, rfl, rfl⟩
    exact place_eq_ok_iff.mpr ⟨_, _, _, p.known, p.applied,
      p.labelled_eq_ok_iff.mpr ⟨hlabelable, rfl⟩, hbindings p⟩

theorem placeAll_cons_eq_ok_iff_step :
    placeAll index (s :: statements) a = .ok (bindings, a') ↔
      ∃ (p : Step) (later : List Binding), p.statement = s ∧ p.before = a ∧ p.Labelable ∧
        placeAll (index + 1) statements p.after = .ok (later, a') ∧
        bindings = p.bindings ++ later := by
  rw [placeAll_cons_eq_ok_iff]
  constructor
  · rintro ⟨here, b, later, hplace, hrest, rfl⟩
    obtain ⟨p, hs, ha, hlabelable, rfl, rfl⟩ := place_eq_ok_iff_step.mp hplace
    exact ⟨p, later, hs, ha, hlabelable, hrest, rfl⟩
  · rintro ⟨p, later, hs, ha, hlabelable, hrest, rfl⟩
    exact ⟨_, _, later, place_eq_ok_iff_step.mpr ⟨p, hs, ha, hlabelable, rfl, rfl⟩, hrest, rfl⟩

/-- Statements that are carried out have a step each, whose bindings follow each other. -/
theorem steps_of_placeAll (h : placeAll index statements a = .ok (bindings, a')) :
    (steps statements a).map Step.statement = statements ∧
      (∀ p ∈ steps statements a, p.Labelable) ∧
      bindings = (steps statements a).flatMap Step.bindings := by
  induction statements generalizing index a bindings with
  | nil =>
    cases h
    exact ⟨rfl, List.forall_mem_nil _, rfl⟩
  | cons s rest ih =>
    obtain ⟨p, later, rfl, rfl, hlabelable, hrest, rfl⟩ := placeAll_cons_eq_ok_iff_step.mp h
    obtain ⟨hstatements, hall, rfl⟩ := ih hrest
    rw [steps_cons]
    exact ⟨by rw [List.map_cons, hstatements], List.forall_mem_cons.mpr ⟨hlabelable, hall⟩, rfl⟩

theorem steps_take (statements : List Statement) (a : Allocator) (n : Nat) :
    steps (statements.take n) a = (steps statements a).take n := by
  induction statements generalizing a n with
  | nil => simp [steps]
  | cons s rest ih =>
    cases n with
    | zero => rfl
    | succ n =>
      rw [List.take_succ_cons, steps, steps]
      cases step? s a with
      | none => rfl
      | some p => simp only [ih, List.take_succ_cons]

/-- The first statements are carried out by themselves, and bind what their steps do. -/
theorem placeAll_take (h : placeAll index statements a = .ok (bindings, a')) (n : Nat) :
    ∃ b, placeAll index (statements.take n) a =
      .ok (((steps statements a).take n).flatMap Step.bindings, b) := by
  rw [← List.take_append_drop n statements, placeAll_append] at h
  obtain ⟨⟨before, b⟩, hbefore, -⟩ := bind_eq_ok_iff.mp h
  obtain ⟨-, -, rfl⟩ := steps_of_placeAll hbefore
  exact ⟨b, by rw [hbefore, steps_take]⟩

/-- What every step keeps holds after statements that are carried out. -/
theorem placeAll_induction {P : Allocator → Prop} (keep : ∀ p : Step, P p.before → P p.after)
    (hP : P a) (h : placeAll index statements a = .ok (bindings, a')) : P a' := by
  induction statements generalizing index a bindings with
  | nil =>
    cases h
    exact hP
  | cons s rest ih =>
    obtain ⟨p, later, rfl, rfl, -, hrest, rfl⟩ := placeAll_cons_eq_ok_iff_step.mp h
    exact ih (keep p hP) hrest

theorem within_of_placeAll {m : MemoryMap} (hwithin : a.Within m)
    (h : placeAll index statements a = .ok (bindings, a')) : a'.Within m :=
  placeAll_induction (fun _ => Step.within) hwithin h

/-- What every step keeps holds before each of them. -/
theorem forall_mem_steps {P : Allocator → Prop} (keep : ∀ p : Step, P p.before → P p.after)
    (h : P a) : ∀ p ∈ steps statements a, P p.before := by
  induction statements generalizing a with
  | nil => exact List.forall_mem_nil _
  | cons s rest ih =>
    unfold steps
    split
    · exact List.forall_mem_nil _
    · rename_i p hp
      obtain ⟨-, rfl⟩ := step?_eq_some_iff.mp hp
      exact List.forall_mem_cons.mpr ⟨h, ih (keep p h)⟩

theorem within_of_mem_steps {m : MemoryMap} (hp : p ∈ steps statements (.fresh m)) :
    p.before.Within m :=
  forall_mem_steps (fun _ => Step.within) (Allocator.within_fresh m) p hp

/-! ## Symbols as steps -/

theorem Step.getLast?_bindings (p : Step) (name : String) :
    (p.bindings.filter (·.name = name)).getLast? =
      if name ∈ p.names then some ⟨name, p.item⟩ else none := by
  have hfilter : p.bindings.filter (·.name = name) =
      (p.names.filter (· = name)).map (⟨·, p.item⟩) := List.filter_map ..
  rw [hfilter, List.filter_eq, List.map_replicate, List.getLast?_replicate]
  by_cases h : name ∈ p.names <;> simp [h, List.count_eq_zero]

/-- The last of a name's bindings is the one that the last step of that name makes. -/
theorem getLast?_filter_bindings (ps : List Step) (name : String) :
    ((ps.flatMap Step.bindings).filter (·.name = name)).getLast? =
      ((ps.filter (name ∈ ·.names)).getLast?).map fun p => ⟨name, p.item⟩ := by
  induction ps with
  | nil => rfl
  | cons p ps ih =>
    rw [List.flatMap_cons, List.filter_append, List.getLast?_append, ih, p.getLast?_bindings,
      ← List.singleton_append, List.filter_append, List.getLast?_append]
    by_cases h : name ∈ p.names
    · cases (ps.filter (name ∈ ·.names)).getLast? <;> simp [h]
    · cases (ps.filter (name ∈ ·.names)).getLast? <;> simp [h]

/-- A symbol of a unit is what the step that it stands for has placed. -/
theorem exists_definition {m : MemoryMap} {u : Assembled} (h : layout m statements = .ok u)
    {b : Binding} (hb : b ∈ u.table.symbols) :
    ∃ p, definition? m statements b.name = some p ∧ b.item = p.item := by
  obtain ⟨⟨bindings, a⟩, hplace, rfl⟩ := map_eq_ok_iff.mp h
  obtain ⟨-, -, rfl⟩ := steps_of_placeAll hplace
  have hlast := (SymbolTable.records_ofBindings _).last b hb
  rw [getLast?_filter_bindings, Option.map_eq_some_iff] at hlast
  obtain ⟨p, hp, heq⟩ := hlast
  exact ⟨p, hp, congrArg Binding.item heq.symm⟩

end Assembly

end MipsMemory
