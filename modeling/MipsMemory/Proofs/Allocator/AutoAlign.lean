import MipsMemory.Proofs.Allocator.Placement
import MipsMemory.Proofs.Rounding

/-!
When items are aligned to their own width. Each segment has a flag for it, which is set where the
segment is selected or aligned. Main statement: of a whole run only the last selection or successful
alignment counts, in whichever segment it was; items are packed as they come after an alignment to
bytes, and else begin at the least multiple of their width.
-/

namespace MipsMemory

namespace Allocator

/-! ## The last switch of a run -/

/-- Selections and successful alignments say how items are aligned from then on. -/
def Operation.switches : Operation → Except Error Outcome → Bool
  | .select _, _ => true
  | .align _, .ok _ => true
  | _, _ => false

/-- The last selection or successful alignment among operations with these answers. -/
def lastSwitch? (operations : List Operation) (answers : List (Except Error Outcome)) :
    Option Operation :=
  (((operations.zip answers).filter fun call => call.1.switches call.2).getLast?).map Prod.fst

theorem lastSwitch?_cons (operation : Operation) (operations : List Operation)
    (answer : Except Error Outcome) (answers : List (Except Error Outcome)) :
    lastSwitch? (operation :: operations) (answer :: answers) =
      (lastSwitch? operations answers).or
        (if operation.switches answer then some operation else none) := by
  unfold lastSwitch?
  rw [List.zip_cons_cons, ← List.singleton_append, List.filter_append, List.getLast?_append,
    Option.map_or]
  cases h : operation.switches answer <;> simp [h]

theorem autoAlign_step (a : Allocator) (operation : Operation) :
    (a.step operation).2.active.autoAlign =
      if operation.switches (a.step operation).1 then decide (operation ≠ .align 0)
      else a.active.autoAlign := by
  cases hp : a.perform operation with
  | error e =>
    rw [step_of_error hp]
    cases operation with
    | select s => cases hp
    | align | emit | reserve | reserveExtern => rfl
  | ok result =>
    obtain ⟨outcome, a'⟩ := result
    rw [step_of_ok hp]
    cases operation with
    | select s =>
      cases hp
      simp [Operation.switches, select, active, cursor]
    | align exponent =>
      obtain ⟨⟨address, _⟩, halign, he⟩ := map_eq_ok_iff.mp hp
      cases he
      obtain ⟨width, c, hwidth, hc, rfl⟩ := align_eq_ok_iff.mp halign
      obtain ⟨-, -, -, rfl⟩ := Cursor.align_eq_ok_iff.mp hc
      obtain rfl := Width.eq_exponent_of_ofExponent hwidth
      rw [active_setActive]
      cases width <;> rfl
    | emit width count =>
      obtain ⟨⟨xs, _⟩, hemit, he⟩ := map_eq_ok_iff.mp hp
      cases he
      obtain ⟨first, c, hc, -, rfl⟩ := emit_eq_ok_iff.mp hemit
      obtain ⟨-, -, rfl⟩ := Cursor.emit_eq_ok_iff.mp hc
      simp [Operation.switches]
    | reserve bytes =>
      obtain ⟨⟨x, _⟩, hreserve, he⟩ := map_eq_ok_iff.mp hp
      cases he
      obtain ⟨first, c, hc, -, rfl⟩ := reserve_eq_ok_iff.mp hreserve
      obtain ⟨-, -, rfl⟩ := Cursor.reserve_eq_ok_iff.mp hc
      simp [Operation.switches]
    | reserveExtern bytes =>
      obtain ⟨⟨x, _⟩, hreserve, he⟩ := map_eq_ok_iff.mp hp
      cases he
      obtain ⟨first, c, -, -, rfl⟩ := reserveExtern_eq_ok_iff.mp hreserve
      rfl

/-- Of a run only the last switch counts. -/
theorem autoAlign_run (a : Allocator) (operations : List Operation) :
    (a.run operations).2.active.autoAlign =
      match lastSwitch? operations (a.run operations).1 with
      | some operation => decide (operation ≠ .align 0)
      | none => a.active.autoAlign := by
  induction operations generalizing a with
  | nil => rfl
  | cons operation operations ih =>
    simp only [run, lastSwitch?_cons, ih, autoAlign_step]
    cases lastSwitch? operations ((a.step operation).2.run operations).1 with
    | some last => rfl
    | none => by_cases h : operation.switches (a.step operation).1 = true <;> simp [h]

/-! ## Where items begin -/

/-- An emission that begins at an offset: its items follow each other from there on, at exact
addresses, and the segment is filled to the end of the last. -/
structure EmitsFrom (base : UInt32) (first : Nat) (width : Width) (count : Nat)
    (items : List Allocation) (a' : Allocator) : Prop where
  length : items.length = count
  address : ∀ (i : Nat) (h : i < items.length),
    items[i].address.toNat = base.toNat + (first + i * width.bytes)
  offset : a'.active.offset = first + width.bytes * count

/-- Items begin at the offset that the selected segment is filled to. -/
def Packs (m : MemoryMap) (a : Allocator) : Prop :=
  ∀ width count items a', a.emit width count = .ok (items, a') →
    EmitsFrom (m.region a.current).base a.active.offset width count items a'

/-- Items begin at the least multiple of their width that is not below that offset, and lie at
multiples of it from the base on, so at addresses that are multiples if the base is one. -/
def Aligns (m : MemoryMap) (a : Allocator) : Prop :=
  ∀ width count items a', a.emit width count = .ok (items, a') →
    let base := (m.region a.current).base
    (∃ first, IsLeast {n | width.IsAligned n ∧ a.active.offset ≤ n} first ∧
      EmitsFrom base first width count items a') ∧
    ∀ x ∈ items,
      (∃ distance, x.address.toNat = base.toNat + distance ∧ width.IsAligned distance) ∧
      (width.IsAligned base.toNat → width.IsAligned x.address.toNat)

section

variable {m : MemoryMap} {a a' : Allocator} {width : Width} {count : Nat} {xs : List Allocation}

theorem emitsFrom_itemStart (hregion : a.active.region = m.region a.current)
    (hbounded : a.active.Bounded) (h : a.emit width count = .ok (xs, a')) :
    EmitsFrom (m.region a.current).base (a.active.itemStart width) width count xs a' := by
  obtain ⟨first, c, hc, rfl, rfl⟩ := emit_eq_ok_iff.mp h
  obtain ⟨hroom, rfl, rfl⟩ := Cursor.emit_eq_ok_iff.mp hc
  have hexact := Cursor.saturated_eq_of_le hbounded.capacity_le hroom
  rw [hexact] at hroom ⊢
  refine ⟨by simp [items], fun i hi => ?_, by rw [active_setActive]⟩
  have hnext := width.mul_add_bytes_le (show i < count by simpa [items] using hi)
  have hpos := width.bytes_pos
  have hend := hbounded.end_le
  simp only [items, List.getElem_map, List.getElem_range]
  rw [Cursor.toNat_addressOf (by simp only; omega)]
  simp only [hregion]

theorem packs_of_autoAlign_eq_false (hregion : a.active.region = m.region a.current)
    (hbounded : a.active.Bounded) (hauto : a.active.autoAlign = false) : a.Packs m := by
  intro width count xs a' h
  have hfrom := emitsFrom_itemStart hregion hbounded h
  rwa [Cursor.itemStart, if_neg (by simp [hauto])] at hfrom

theorem aligns_of_autoAlign_eq_true (hregion : a.active.region = m.region a.current)
    (hbounded : a.active.Bounded) (hauto : a.active.autoAlign = true) : a.Aligns m := by
  intro width count xs a' h base
  have hfrom := emitsFrom_itemStart hregion hbounded h
  rw [Cursor.itemStart, if_pos hauto] at hfrom
  have hleast := width.isLeast_alignUp hbounded.add_seven_le
  refine ⟨⟨_, hleast, hfrom⟩, fun x hx => ?_⟩
  obtain ⟨i, hi, rfl⟩ := List.getElem_of_mem hx
  have hdistance : width.IsAligned (width.alignUp a.active.offset + i * width.bytes) :=
    hleast.1.1.add (Nat.mul_mod_left _ _)
  rw [hfrom.address i hi]
  exact ⟨⟨_, rfl, hdistance⟩, fun hbase => hbase.add hdistance⟩

end

/-! ## Runs -/

/-- Items are packed after an alignment to bytes, and aligned after any other switch or none. -/
structure Follows (m : MemoryMap) (a : Allocator) (last : Option Operation) : Prop where
  packs : last = some (.align 0) → a.Packs m
  aligns : last ≠ some (.align 0) → a.Aligns m

theorem follows_run {m : MemoryMap} {operations : List Operation} {last : Option Operation}
    (h : ((fresh m).run operations).2.active.autoAlign = decide (last ≠ some (.align 0))) :
    ((fresh m).run operations).2.Follows m last := by
  obtain ⟨hregion, hbounded⟩ := active_run m operations
  constructor
  · intro hlast
    exact packs_of_autoAlign_eq_false hregion hbounded (by simpa [hlast] using h)
  · intro hlast
    exact aligns_of_autoAlign_eq_true hregion hbounded (by simpa [hlast] using h)

theorem autoAlign_run_fresh (m : MemoryMap) (operations : List Operation) :
    ((fresh m).run operations).2.active.autoAlign =
      decide (lastSwitch? operations ((fresh m).run operations).1 ≠ some (.align 0)) := by
  rw [autoAlign_run]
  cases lastSwitch? operations ((fresh m).run operations).1 with
  | some last => simp
  | none => rfl

theorem lastSwitch?_eq_none {operations : List Operation} {answers : List (Except Error Outcome)}
    (h : ∀ call ∈ operations.zip answers, call.1.switches call.2 = false) :
    lastSwitch? operations answers = none := by
  rw [lastSwitch?, List.filter_eq_nil_iff.mpr fun call hcall => by simp [h call hcall]]
  rfl

/-- After any run, items are packed if the last selection or successful alignment, in any segment,
was an alignment to bytes, and are aligned otherwise. Failed alignments, items and reservations make
no difference to that, and selecting another segment and coming back restores the alignment. -/
theorem auto_align_follows_history (m : MemoryMap) (earlier : List Operation) :
    let a := ((fresh m).run earlier).2
    let last := lastSwitch? earlier ((fresh m).run earlier).1
    a.Follows m last ∧
    (∀ quiet : List Operation,
      (∀ call ∈ quiet.zip (a.run quiet).1, call.1.switches call.2 = false) →
        (a.run quiet).2.Follows m last) ∧
    ∀ (s t : Segment) (between : List Operation),
      (a.run (.select t :: between ++ [.select s])).2.Aligns m := by
  intro a last
  have hrun (later : List Operation) :
      (a.run later).2 = ((fresh m).run (earlier ++ later)).2 := (run_append ..).symm
  refine ⟨follows_run (autoAlign_run_fresh m earlier), ?_, ?_⟩
  · intro quiet hquiet
    have hauto : (a.run quiet).2.active.autoAlign = a.active.autoAlign := by
      rw [autoAlign_run, lastSwitch?_eq_none hquiet]
    rw [hrun] at hauto ⊢
    exact follows_run (hauto.trans (autoAlign_run_fresh m earlier))
  · intro s t between
    have hauto : (a.run (.select t :: between ++ [.select s])).2.active.autoAlign = true := by
      rw [run_append]
      exact autoAlign_step _ (.select s)
    rw [hrun] at hauto ⊢
    obtain ⟨hregion, hbounded⟩ := active_run m (earlier ++ (.select t :: between ++ [.select s]))
    exact aligns_of_autoAlign_eq_true hregion hbounded hauto

/-- An alignment to bytes that fails where kernel data is full, and one that does not in static
data: a word is packed there after failures and reservations, and aligned after a detour. -/
theorem auto_align_follows_history_standard :
    let m := { MemoryMap.standard with kdata := ⟨0xfffffff0, 0xffffffff⟩ }
    let earlier : List Operation :=
      [.select .kernelData, .reserve 16, .align 0, .select .data, .align 0, .emit .byte 1]
    let quiet : List Operation := [.align 9, .reserveExtern 5, .emit .double 0x80000, .reserve 2]
    let answers := ((fresh m).run earlier).1
    let a := ((fresh m).run earlier).2
    let back := a.run (.select .kernelData :: quiet ++ [.select .data])
    (lastSwitch? earlier answers = some (.align 0) ∧
      ∀ call ∈ quiet.zip (a.run quiet).1, call.1.switches call.2 = false) ∧
    ((a.run quiet).2.Packs m ∧
      answered ((a.run quiet).2.step (.emit .word 1)).1 = [⟨.data, 0x10010003, 4⟩]) ∧
    back.2.Aligns m ∧ answered (back.2.step (.emit .word 1)).1 = [⟨.data, 0x10010004, 4⟩] := by
  intro m earlier quiet
  have hlast : lastSwitch? earlier ((fresh m).run earlier).1 = some (.align 0) := by
    decide +kernel
  have hcalls : ∀ call ∈ quiet.zip (((fresh m).run earlier).2.run quiet).1,
      call.1.switches call.2 = false := by
    decide +kernel
  obtain ⟨-, hquiet, hback⟩ := auto_align_follows_history m earlier
  exact ⟨⟨hlast, hcalls⟩, ⟨(hquiet quiet hcalls).packs hlast, by decide +kernel⟩,
    hback .data .kernelData quiet, by decide +kernel⟩

end Allocator

end MipsMemory
