import MipsMemory.Proofs.Allocator.Effect

/-!
What calls leave alone. Main statement: a call that succeeds changes the cursor of one area only,
and of the extern area or a selected segment not even all of that.
-/

namespace MipsMemory

namespace Allocator

/-- Only the cursor of one area differs, and that in its offset and automatic alignment. -/
structure ChangesOnly (area : Area) (a a' : Allocator) : Prop where
  map : a'.map = a.map
  elsewhere : ∀ other, other ≠ area → a'.areaCursor other = a.areaCursor other
  region : (a'.areaCursor area).region = (a.areaCursor area).region

/-- Nothing but the cursor of the selected segment differs. -/
structure ChangesActive (a a' : Allocator) : Prop where
  current : a'.current = a.current
  only : ChangesOnly (.segment a.current) a a'

/-- Nothing but the offset of the extern area differs. -/
structure ChangesExternOffset (a a' : Allocator) : Prop where
  current : a'.current = a.current
  only : ChangesOnly .externs a a'
  autoAlign : a'.externs.autoAlign = a.externs.autoAlign

/-- The segment is the selected one, and nothing else differs but its automatic alignment. -/
structure ChangesSelection (s : Segment) (a a' : Allocator) : Prop where
  current : a'.current = s
  only : ChangesOnly (.segment s) a a'
  offset : a'.offset s = a.offset s

/-- What an operation that succeeds can change. -/
def Operation.Changes : Operation → Allocator → Allocator → Prop
  | .select s => ChangesSelection s
  | .align _ | .emit _ _ | .reserve _ => ChangesActive
  | .reserveExtern _ => ChangesExternOffset

/-- A failure changes nothing, a success no more than what is allowed. -/
def Confined {α : Type} (allowed : Allocator → Allocator → Prop) (a : Allocator) :
    Except Error α × Allocator → Prop
  | (.ok _, a') => allowed a a'
  | (.error _, a') => a' = a

theorem confined_after {α : Type} {allowed : Allocator → Allocator → Prop} {a : Allocator}
    {call : Except Error (α × Allocator)} (h : ∀ x a', call = .ok (x, a') → allowed a a') :
    Confined allowed a (a.after call) := by
  rcases call with e | ⟨x, a'⟩
  · rfl
  · exact h x a' rfl

variable {a a' : Allocator}

theorem changesActive_setActive {c : Cursor} (h : c.region = a.active.region) :
    a.ChangesActive (a.setActive c) where
  current := rfl
  only :=
    { map := rfl
      elsewhere := fun other hother => by rw [areaCursor_setActive, if_neg hother]
      region := by rw [areaCursor_setActive, if_pos rfl, h]; rfl }

theorem changesActive_of_align {exponent : Nat} {address : UInt32}
    (h : a.align exponent = .ok (address, a')) : a.ChangesActive a' := by
  obtain ⟨width, c, -, hc, rfl⟩ := align_eq_ok_iff.mp h
  obtain ⟨-, -, -, rfl⟩ := Cursor.align_eq_ok_iff.mp hc
  exact changesActive_setActive rfl

theorem changesActive_of_emit {width : Width} {count : Nat} {xs : List Allocation}
    (h : a.emit width count = .ok (xs, a')) : a.ChangesActive a' := by
  obtain ⟨first, c, hc, -, rfl⟩ := emit_eq_ok_iff.mp h
  obtain ⟨-, -, rfl⟩ := Cursor.emit_eq_ok_iff.mp hc
  exact changesActive_setActive rfl

theorem changesActive_of_reserve {bytes : UInt32} {x : Allocation}
    (h : a.reserve bytes = .ok (x, a')) : a.ChangesActive a' := by
  obtain ⟨first, c, hc, -, rfl⟩ := reserve_eq_ok_iff.mp h
  obtain ⟨-, -, rfl⟩ := Cursor.reserve_eq_ok_iff.mp hc
  exact changesActive_setActive rfl

theorem changesExternOffset_of_reserveExtern {bytes : UInt32} {x : Allocation}
    (h : a.reserveExtern bytes = .ok (x, a')) : a.ChangesExternOffset a' := by
  obtain ⟨first, c, hc, -, rfl⟩ := reserveExtern_eq_ok_iff.mp h
  obtain ⟨-, -, rfl⟩ := Cursor.reserve_eq_ok_iff.mp hc
  refine ⟨rfl, ⟨rfl, fun other hother => ?_, rfl⟩, rfl⟩
  cases other with
  | segment s => rfl
  | externs => exact absurd rfl hother

theorem changesSelection_select (a : Allocator) (s : Segment) :
    a.ChangesSelection s (a.select s) where
  current := rfl
  only :=
    { map := rfl
      elsewhere := fun other hother => by rw [areaCursor_select, if_neg hother]
      region := by rw [areaCursor_select, if_pos rfl]; rfl }
  offset := a.offset_select s s

theorem perform_changes {operation : Operation} {outcome : Outcome}
    (h : a.perform operation = .ok (outcome, a')) : operation.Changes a a' := by
  cases operation with
  | select s =>
    cases h
    exact a.changesSelection_select s
  | align exponent =>
    obtain ⟨⟨_, _⟩, halign, he⟩ := map_eq_ok_iff.mp h
    cases he
    exact changesActive_of_align halign
  | emit width count =>
    obtain ⟨⟨_, _⟩, hemit, he⟩ := map_eq_ok_iff.mp h
    cases he
    exact changesActive_of_emit hemit
  | reserve bytes =>
    obtain ⟨⟨_, _⟩, hreserve, he⟩ := map_eq_ok_iff.mp h
    cases he
    exact changesActive_of_reserve hreserve
  | reserveExtern bytes =>
    obtain ⟨⟨_, _⟩, hreserve, he⟩ := map_eq_ok_iff.mp h
    cases he
    exact changesExternOffset_of_reserveExtern hreserve

end Allocator

end MipsMemory
