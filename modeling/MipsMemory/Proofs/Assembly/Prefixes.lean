import Mathlib.Control.Monad.Basic
import MipsMemory.Proofs.Assembly.Symbols

/-!
Units and their beginnings. Main statement: a unit fails at its first statement that cannot be
carried out after the ones before it, whatever comes later, and what a unit has laid out, more
statements only add to.
-/

namespace MipsMemory

namespace SymbolTable

/-! ## Tables only grow -/

theorem names_prefix_foldl_bind (t : SymbolTable) (events : List Binding) :
    t.names <+: (events.foldl bind t).names := by
  induction events generalizing t with
  | nil => exact List.prefix_refl _
  | cons b events ih => exact List.IsPrefix.trans ⟨_, (t.names_bind b).symm⟩ (ih (t.bind b))

theorem redefined_prefix_foldl_bind (t : SymbolTable) (events : List Binding) :
    t.redefined <+: (events.foldl bind t).redefined := by
  induction events generalizing t with
  | nil => exact List.prefix_refl _
  | cons b events ih => exact List.IsPrefix.trans ⟨_, (t.redefined_bind b).symm⟩ (ih (t.bind b))

end SymbolTable

/-- The later unit has all that the earlier one has. -/
structure Assembled.Continues (earlier later : Assembled) : Prop where
  names : earlier.table.names <+: later.table.names
  redefined : earlier.table.redefined <+: later.table.redefined
  used : ∀ s, earlier.layout.used.get s ≤ later.layout.used.get s
  externUsed : earlier.layout.externUsed ≤ later.layout.externUsed

namespace Assembly

variable {a : Allocator} {index : Nat} {statements : List Statement} {failure : Failure}

/-! ## The first failure -/

theorem placeAll_cons_eq_error_iff {s : Statement} :
    placeAll index (s :: statements) a = .error failure ↔
      (∃ e, place s a = .error e ∧ failure = ⟨index, e⟩) ∨
        ∃ here b, place s a = .ok (here, b) ∧
          placeAll (index + 1) statements b = .error failure := by
  simp only [placeAll, bind_eq_error_iff, mapError_eq_error_iff, mapError_eq_ok_iff]
  constructor
  · rintro (⟨e, he, rfl⟩ | ⟨⟨here, b⟩, hplace, hrest | ⟨_, -, hpure⟩⟩)
    · exact .inl ⟨e, he, rfl⟩
    · exact .inr ⟨here, b, hplace, hrest⟩
    · cases hpure
  · rintro (⟨e, he, rfl⟩ | ⟨here, b, hplace, hrest⟩)
    · exact .inl ⟨e, he, rfl⟩
    · exact .inr ⟨⟨here, b⟩, hplace, .inl hrest⟩

/-- Where statements cannot be carried out, there is one that cannot while all before it can. -/
theorem exists_first_of_error (h : placeAll index statements a = .error failure) :
    ∃ before s after bindings b, statements = before ++ s :: after ∧
      failure.index = index + before.length ∧ placeAll index before a = .ok (bindings, b) ∧
      place s b = .error failure.error := by
  induction statements generalizing index a with
  | nil => cases h
  | cons s statements ih =>
    rcases placeAll_cons_eq_error_iff.mp h with ⟨e, hplace, rfl⟩ | ⟨here, b, hplace, hrest⟩
    · exact ⟨[], s, statements, [], a, rfl, rfl, rfl, hplace⟩
    · obtain ⟨before, s', after, later, c, rfl, hindex, hbefore, hfails⟩ := ih hrest
      refine ⟨s :: before, s', after, here ++ later, c, rfl, ?_, ?_, hfails⟩
      · rw [hindex, List.length_cons]
        omega
      · exact placeAll_cons_eq_ok_iff.mpr ⟨here, b, later, hplace, hbefore, rfl⟩

theorem layout_append_of_error {m : MemoryMap} (h : layout m statements = .error failure)
    (rest : List Statement) : layout m (statements ++ rest) = .error failure := by
  have hplace := map_eq_error_iff.mp h
  rw [layout, placeAll_append, hplace]
  rfl

theorem layout_eq_error_iff {m : MemoryMap} :
    layout m statements = .error failure ↔
      failure.index < statements.length ∧
        (∃ u, layout m (statements.take failure.index) = .ok u) ∧
        layout m (statements.take (failure.index + 1)) = .error failure := by
  constructor
  · intro h
    obtain ⟨before, s, after, bindings, b, rfl, hindex, hbefore, hfails⟩ :=
      exists_first_of_error (map_eq_error_iff.mp h)
    rw [Nat.zero_add] at hindex
    have htake : (before ++ s :: after).take failure.index = before := by
      rw [hindex, List.take_left]
    have htake' : (before ++ s :: after).take (failure.index + 1) = before ++ [s] := by
      rw [hindex, List.take_length_add_append]
      rfl
    rw [htake, htake', layout, layout, placeAll_append, hbefore, ok_bind]
    refine ⟨by rw [hindex]; simp, ⟨_, rfl⟩, map_eq_error_iff.mpr ?_⟩
    refine bind_eq_error_iff.mpr (.inl (placeAll_cons_eq_error_iff.mpr (.inl ?_)))
    exact ⟨failure.error, hfails, by rw [Nat.zero_add, ← hindex]⟩
  · rintro ⟨-, -, h⟩
    have happend := layout_append_of_error h (statements.drop (failure.index + 1))
    rwa [List.take_append_drop] at happend

/-! ## Beginnings of units that are laid out -/

theorem layout_append_eq_ok {m : MemoryMap} {rest : List Statement} {v : Assembled}
    (h : layout m (statements ++ rest) = .ok v) :
    ∃ u, layout m statements = .ok u ∧ u.Continues v := by
  obtain ⟨⟨bindings, b⟩, hplace, rfl⟩ := map_eq_ok_iff.mp h
  rw [placeAll_append] at hplace
  obtain ⟨⟨before, a⟩, hbefore, hplace⟩ := bind_eq_ok_iff.mp hplace
  obtain ⟨⟨later, c⟩, hlater, he⟩ := bind_eq_ok_iff.mp hplace
  cases he
  refine ⟨⟨before, a.finish⟩, by rw [layout, hbefore]; rfl, ?_⟩
  obtain ⟨operations, -, hrun⟩ := exists_run_of_placeAll hbefore
  obtain ⟨operations', -, hrun'⟩ := exists_run_of_placeAll hlater
  -- the later statements are a run of the allocator that the first ones leave
  have hextends (area : Area) : (a.areaCursor area).Extends (b.areaCursor area) := by
    have hbounded := (Allocator.run_extends (Allocator.areaCursor_fresh_bounded m area)
      operations).bounded
    rw [hrun] at hbounded
    rw [← hrun']
    exact Allocator.run_extends hbounded operations'
  refine ⟨?_, ?_, fun s => ?_, (hextends .externs).offset_le⟩
  · simpa [Assembled.table, SymbolTable.ofBindings] using
      SymbolTable.names_prefix_foldl_bind (.ofBindings before) later
  · simpa [Assembled.table, SymbolTable.ofBindings] using
      SymbolTable.redefined_prefix_foldl_bind (.ofBindings before) later
  · simp only [Allocator.finish, PerSegment.get_ofFn]
    exact (hextends (.segment s)).offset_le

/-- A unit fails at the first statement that fails after the ones before it, whatever follows, and
the beginning of a unit that is laid out is laid out with less or the same. -/
theorem layout_of_beginning (m : MemoryMap) (statements : List Statement) :
    (∀ failure, layout m statements = .error failure ↔
      failure.index < statements.length ∧
        (∃ u, layout m (statements.take failure.index) = .ok u) ∧
        layout m (statements.take (failure.index + 1)) = .error failure) ∧
    ∀ rest,
      (∀ failure, layout m statements = .error failure →
        layout m (statements ++ rest) = .error failure) ∧
      ∀ v, layout m (statements ++ rest) = .ok v →
        ∃ u, layout m statements = .ok u ∧ u.Continues v :=
  ⟨fun _ => layout_eq_error_iff, fun rest =>
    ⟨fun _ h => layout_append_of_error h rest, fun _ => layout_append_eq_ok⟩⟩

/-- The unknown directive fails the unit also with a statement after it. Without it the name `x`
that is given once more changes nothing of what was there. -/
theorem layout_of_beginning_unknown :
    let m := MemoryMap.standard
    let statements : List Statement := [⟨none, ".data", []⟩, ⟨some "x", ".word", [.int 1]⟩]
    let again : Statement := ⟨some "x", ".word", [.int 3]⟩
    let unknown : Statement := ⟨none, ".wrod", [.int 2]⟩
    let failure : Failure := ⟨2, .directiveNotFound ".wrod"⟩
    layout m (statements ++ [unknown]) = .error failure ∧
      (∃ u, layout m statements = .ok u) ∧
      layout m (statements ++ [unknown] ++ [again]) = .error failure ∧
      ∃ v u, layout m (statements ++ [again]) = .ok v ∧ layout m statements = .ok u ∧
        u.Continues v ∧ v.table.redefined = ["x"] := by
  intro m statements again unknown failure
  have hfails : layout m (statements ++ [unknown]) = .error failure := by decide +kernel
  have hredefined : (layout m (statements ++ [again])).toOption.map (·.table.redefined) =
      some ["x"] := by decide +kernel
  obtain ⟨-, hfirst, -⟩ := ((layout_of_beginning m (statements ++ [unknown])).1 failure).mp hfails
  refine ⟨hfails, hfirst,
    ((layout_of_beginning m (statements ++ [unknown])).2 [again]).1 failure hfails, ?_⟩
  cases hv : layout m (statements ++ [again]) with
  | error e =>
    rw [hv] at hredefined
    cases hredefined
  | ok v =>
    obtain ⟨u, hu, hcontinues⟩ := ((layout_of_beginning m statements).2 [again]).2 v hv
    rw [hv] at hredefined
    exact ⟨v, u, rfl, hu, hcontinues, Option.some.inj hredefined⟩

end Assembly

end MipsMemory
