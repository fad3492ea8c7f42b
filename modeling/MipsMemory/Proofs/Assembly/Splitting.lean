import MipsMemory.Proofs.Allocator.Frame
import MipsMemory.Proofs.Assembly.Steps

/-!
Data statements in parts. Items of one width that follow others of that width begin where those end,
with automatic alignment on or off. Main statement: numbers or strings are stored all at once exactly
if they can be stored in two parts, one after the other, and with the same result.
-/

namespace MipsMemory

theorem Width.isAligned_bytes_mul (w : Width) (count : Nat) : w.IsAligned (w.bytes * count) :=
  Nat.mul_mod_right _ _

/-! ## Items -/

namespace Cursor

variable {c : Cursor}

/-- The cursor after items of a width. -/
def past (c : Cursor) (width : Width) (count : Nat) : Cursor :=
  { c with offset := c.itemStart width + width.bytes * count }

/-- After items nothing is skipped before others of the same width. -/
theorem Bounded.itemStart_past (hc : c.Bounded) {width : Width} {count : Nat}
    (hpast : (c.past width count).Bounded) :
    (c.past width count).itemStart width = c.itemStart width + width.bytes * count := by
  unfold itemStart
  cases hauto : c.autoAlign with
  | false => simp [past, itemStart, hauto]
  | true =>
    have haligned : width.IsAligned (c.past width count).offset := by
      rw [past, itemStart, if_pos hauto]
      exact (width.isAligned_alignUp hc.add_seven_le).add (width.isAligned_bytes_mul count)
    have hstart := width.alignUp_of_isAligned hpast.add_seven_le haligned
    simpa [past, itemStart, hauto] using hstart

theorem Bounded.past_past (hc : c.Bounded) {width : Width} {j k : Nat}
    (hpast : (c.past width j).Bounded) : (c.past width j).past width k = c.past width (j + k) := by
  rw [past, hc.itemStart_past hpast, past, past, Nat.mul_add, Nat.add_assoc]

end Cursor

namespace Allocator

variable {a a' : Allocator} {width : Width} {count j k : Nat} {xs : List Allocation}

theorem items_add (s : Segment) (c : Cursor) (width : Width) (first j k : Nat) :
    items s c width first (j + k) =
      items s c width first j ++ items s c width (first + width.bytes * j) k := by
  unfold items
  rw [List.range_add, List.map_append, List.map_map]
  congr 1
  refine List.map_congr_left fun i _ => ?_
  rw [Function.comp, Nat.add_mul, Nat.mul_comm j, Nat.add_assoc]

theorem emit_eq_ok_iff_past (hbounded : a.active.Bounded) :
    a.emit width count = .ok (xs, a') ↔
      (a.active.past width count).Bounded ∧
        xs = items a.current a.active width (a.active.itemStart width) count ∧
        a' = a.setActive (a.active.past width count) := by
  rw [emit_eq_ok_iff]
  constructor
  · rintro ⟨first, c, hc, rfl, rfl⟩
    obtain ⟨hroom, rfl, rfl⟩ := Cursor.emit_eq_ok_iff.mp hc
    have hexact := Cursor.saturated_eq_of_le hbounded.capacity_le hroom
    rw [hexact] at hroom ⊢
    exact ⟨⟨hroom, hbounded.end_le⟩, rfl, rfl⟩
  · rintro ⟨hpast, rfl, rfl⟩
    have hexact := hbounded.saturated_eq hpast.offset_le
    refine ⟨_, _, Cursor.emit_eq_ok_iff.mpr ⟨?_, rfl, rfl⟩, ?_, ?_⟩
    · rw [hexact]
      exact hpast.offset_le
    · rfl
    · rw [hexact, Cursor.past]

/-- Items are placed all at once exactly if they are placed in two parts. -/
theorem emit_add (hbounded : a.active.Bounded) :
    a.emit width (j + k) = .ok (xs, a') ↔
      ∃ before b later, a.emit width j = .ok (before, b) ∧ b.emit width k = .ok (later, a') ∧
        xs = before ++ later := by
  simp only [emit_eq_ok_iff_past hbounded]
  constructor
  · rintro ⟨hpast, rfl, rfl⟩
    have hfirst : (a.active.past width j).Bounded := by
      refine ⟨Nat.le_trans ?_ hpast.offset_le, hbounded.end_le⟩
      exact Nat.add_le_add_left (Nat.mul_le_mul_left _ (Nat.le_add_right j k)) _
    refine ⟨_, _, _, ⟨hfirst, rfl, rfl⟩, ?_, items_add ..⟩
    rw [emit_eq_ok_iff_past (by rwa [active_setActive]), active_setActive,
      hbounded.past_past hfirst, hbounded.itemStart_past hfirst, setActive_setActive]
    exact ⟨hpast, rfl, rfl⟩
  · rintro ⟨_, _, later, ⟨hfirst, rfl, rfl⟩, hlater, rfl⟩
    rw [emit_eq_ok_iff_past (by rwa [active_setActive]), active_setActive,
      hbounded.past_past hfirst, hbounded.itemStart_past hfirst, setActive_setActive] at hlater
    obtain ⟨hpast, rfl, rfl⟩ := hlater
    exact ⟨hpast, (items_add ..).symm, rfl⟩

end Allocator

/-! ## Operands -/

namespace Directive

variable {d : Directive} {xs ys : List Operand} {width : Width} {payload : Payload}

theorem textLength?_append (terminated : Bool) (xs ys : List Operand) :
    textLength? terminated (xs ++ ys) =
      (textLength? terminated xs).bind fun j =>
        (textLength? terminated ys).map fun k => j + k := by
  induction xs with
  | nil => simp [textLength?]
  | cons x xs ih =>
    cases x with
    | text s =>
      simp only [List.cons_append, textLength?, ih]
      cases textLength? terminated xs <;> cases textLength? terminated ys <;>
        simp [Nat.add_assoc]
    | int | float => rfl

theorem exists_emit_of_payloadRequest (hspace : payload ≠ .space) {operation : Allocator.Operation}
    (h : d.payloadRequest width xs payload = .ok operation) :
    ∃ count, operation = .emit width count := by
  cases payload with
  | space => exact absurd rfl hspace
  | numeric kind =>
    simp only [payloadRequest] at h
    split at h
    · cases h
    · split at h <;> cases h
      exact ⟨_, rfl⟩
  | text terminated =>
    simp only [payloadRequest] at h
    split at h <;> cases h
    exact ⟨_, rfl⟩

/-- Operands of a data directive ask for as many items as their parts do together. -/
theorem payloadRequest_append (hspace : payload ≠ .space) (hx : xs ≠ []) (hy : ys ≠ [])
    {count : Nat} :
    d.payloadRequest width (xs ++ ys) payload = .ok (.emit width count) ↔
      ∃ j k, d.payloadRequest width xs payload = .ok (.emit width j) ∧
        d.payloadRequest width ys payload = .ok (.emit width k) ∧ count = j + k := by
  cases payload with
  | space => exact absurd rfl hspace
  | numeric kind =>
    simp only [payloadRequest, List.isEmpty_iff, List.append_eq_nil_iff, hx, hy, false_and,
      if_false, List.all_append, List.length_append]
    cases xs.all kind.accepts <;> cases ys.all kind.accepts <;> simp [bad, eq_comm]
  | text terminated =>
    simp only [payloadRequest, textLength?_append]
    cases textLength? terminated xs <;> cases textLength? terminated ys <;> simp [bad, eq_comm]

/-- A data directive other than for space places items, as many as its operands ask for. -/
theorem apply_eq_ok_iff_emit (hrole : d.role = .emit width payload) (hspace : payload ≠ .space)
    {operands : List Operand} {a a' : Allocator} {items : List Allocation} :
    d.apply operands a = .ok (items, a') ↔
      a.current.isText = false ∧ ∃ count,
        d.payloadRequest width operands payload = .ok (.emit width count) ∧
          a.emit width count = .ok (items, a') := by
  simp only [apply_eq, request, hrole, bind_eq_ok_iff]
  constructor
  · rintro ⟨r, hr, hfulfil⟩
    split at hr
    · cases hr
    · rename_i htext
      obtain ⟨operation, hrequest, rfl⟩ := map_eq_ok_iff.mp hr
      obtain ⟨count, rfl⟩ := exists_emit_of_payloadRequest hspace hrequest
      rw [Allocator.fulfil_emit] at hfulfil
      exact ⟨eq_false_of_ne_true htext, count, hrequest, hfulfil⟩
  · rintro ⟨htext, count, hrequest, hemit⟩
    refine ⟨some (.emit width count), ?_, (a.fulfil_emit width count).trans hemit⟩
    rw [htext, if_neg Bool.false_ne_true, hrequest]
    rfl

/-- In every state that operations lead to, a data directive other than for space carries out
operands in one go exactly if it carries out a first part of them and then the rest; it then reserves
the same pieces, in order, and leaves the allocator in the same state. -/
theorem apply_append (m : MemoryMap) (earlier : List Allocator.Operation)
    (hrole : d.role = .emit width payload) (hspace : payload ≠ .space) (hx : xs ≠ [])
    (hy : ys ≠ []) (items : List Allocation) (a' : Allocator) :
    let a := ((Allocator.fresh m).run earlier).2
    d.apply (xs ++ ys) a = .ok (items, a') ↔
      ∃ before b later, d.apply xs a = .ok (before, b) ∧ d.apply ys b = .ok (later, a') ∧
        items = before ++ later := by
  intro a
  have hbounded : a.active.Bounded :=
    (Allocator.run_extends (Allocator.areaCursor_fresh_bounded m (.segment a.current))
      earlier).bounded
  constructor
  · intro h
    obtain ⟨htext, count, hrequest, hemit⟩ := (apply_eq_ok_iff_emit hrole hspace).mp h
    obtain ⟨j, k, hj, hk, rfl⟩ := (payloadRequest_append hspace hx hy).mp hrequest
    obtain ⟨before, b, later, hbefore, hlater, rfl⟩ := (Allocator.emit_add hbounded).mp hemit
    have hcurrent : b.current = a.current := (Allocator.changesActive_of_emit hbefore).current
    exact ⟨before, b, later, (apply_eq_ok_iff_emit hrole hspace).mpr ⟨htext, j, hj, hbefore⟩,
      (apply_eq_ok_iff_emit hrole hspace).mpr ⟨hcurrent ▸ htext, k, hk, hlater⟩, rfl⟩
  · rintro ⟨before, b, later, hxs, hys, rfl⟩
    obtain ⟨htext, j, hj, hbefore⟩ := (apply_eq_ok_iff_emit hrole hspace).mp hxs
    obtain ⟨-, k, hk, hlater⟩ := (apply_eq_ok_iff_emit hrole hspace).mp hys
    exact (apply_eq_ok_iff_emit hrole hspace).mpr ⟨htext, j + k,
      (payloadRequest_append hspace hx hy).mpr ⟨j, k, hj, hk, rfl⟩,
      (Allocator.emit_add hbounded).mpr ⟨before, b, later, hbefore, hlater, rfl⟩⟩

/-- Three halfwords at once and in two parts: the first part skips a byte, the second none. -/
theorem apply_append_halves :
    let d := catalogue[7]
    let a := ((Allocator.fresh .standard).run [.select .data, .emit .byte 3]).2
    let xs : List Operand := [.int 1]
    let ys : List Operand := [.int 2, .int 3]
    (d.role = .emit .half (.numeric .integer) ∧ xs ≠ [] ∧ ys ≠ []) ∧
      ∃ items a' before b later, d.apply (xs ++ ys) a = .ok (items, a') ∧
        d.apply xs a = .ok (before, b) ∧ d.apply ys b = .ok (later, a') ∧
        items = before ++ later ∧
        items = [⟨.data, 0x10010004, 2⟩, ⟨.data, 0x10010006, 2⟩, ⟨.data, 0x10010008, 2⟩] := by
  intro d a xs ys
  have hrole : d.role = .emit .half (.numeric .integer) := rfl
  have hitems : ((d.apply (xs ++ ys) a).toOption.map Prod.fst) =
      some [⟨.data, 0x10010004, 2⟩, ⟨.data, 0x10010006, 2⟩, ⟨.data, 0x10010008, 2⟩] := by
    decide +kernel
  obtain ⟨⟨items, a'⟩, happly, hitems⟩ := exists_of_toOption_map hitems
  obtain ⟨before, b, later, hxs, hys, heq⟩ :=
    (apply_append .standard [.select .data, .emit .byte 3] hrole nofun (List.cons_ne_nil _ _)
      (List.cons_ne_nil _ _) items a').mp happly
  exact ⟨⟨hrole, List.cons_ne_nil _ _, List.cons_ne_nil _ _⟩, items, a', before, b, later, happly,
    hxs, hys, heq, hitems⟩

end Directive

end MipsMemory
