import MipsMemory.Proofs.Access.Refusal
import MipsMemory.Proofs.Machine.InPlace
import MipsMemory.Proofs.Machine.ReadOnlyText

/-!
Operations of a machine that fail. A load or store looks at its register first, then at its base and
then at the access; `Refused` lists what it can find, in that order. Main statement: on every machine
that operations lead to, loads and stores fail with exactly these causes, and no operation that
fails, though it is carried out in place, changes a register or a byte.
-/

namespace MipsMemory

namespace Machine

/-! ## Why a load or store is refused -/

/-- The first thing wrong with an instruction on a register and a memory item. -/
inductive Refused (m : Machine) (kind : AccessKind) (rt base : Nat) (offset : Int16) (width : Width) :
    Error → Prop
  | register (noRegister : m.registers.registers.length ≤ rt) :
    Refused m kind rt base offset width (.invalidRegisterNumber rt)
  | base (isRegister : rt < m.registers.registers.length)
    (noBase : m.registers.registers.length ≤ base) :
    Refused m kind rt base offset width (.invalidRegisterNumber base)
  | access (isRegister : rt < m.registers.registers.length) {start address : UInt32} {fault : Fault}
    (isBase : m.registers.read base = .ok start)
    (sum : (address.toNat : Int) = (start.toNat + offset.toInt) % UInt32.size)
    (isFault : m.memory.map.FaultAt address kind width fault) :
    Refused m kind rt base offset width (.address ⟨address, kind, fault⟩)

section

variable {m : Machine} {kind : AccessKind} {rt base : Nat} {offset : Int16} {width : Width} {e : Error}

/-- An instruction that looks at its register, its base and its access in turn, and does not fail
from then on, fails with the first thing wrong. -/
theorem refused_iff {α β γ : Type} {check : Except Error α}
    {access : α → UInt32 → Except AddressError β} {finish : α → UInt32 → β → Except Error γ}
    (hcheck : ∀ e, check = .error e ↔
      m.registers.registers.length ≤ rt ∧ e = .invalidRegisterNumber rt)
    (haccess : ∀ x address e, access x address = .error e ↔
      m.memory.map.validate address kind width = .error e)
    (hfinish : ∀ x address y e, check = .ok x → finish x address y ≠ .error e) :
    (do
      let x ← check
      let address ← m.effectiveAddress base offset
      let y ← checked (access x address)
      finish x address y) = .error e ↔ m.Refused kind rt base offset width e := by
  have hregister {x : α} (hx : check = .ok x) : rt < m.registers.registers.length := by
    refine Nat.lt_of_not_le fun hle => ?_
    rw [(hcheck _).mpr ⟨hle, rfl⟩] at hx
    cases hx
  constructor
  · intro h
    rcases bind_eq_error_iff.mp h with hrt | ⟨x, hx, h⟩
    · obtain ⟨hle, rfl⟩ := (hcheck e).mp hrt
      exact .register hle
    rcases bind_eq_error_iff.mp h with hbase | ⟨address, haddress, h⟩
    · obtain ⟨hle, rfl⟩ := RegisterFile.read_eq_error_iff.mp (map_eq_error_iff.mp hbase)
      exact .base (hregister hx) hle
    rcases bind_eq_error_iff.mp h with hitem | ⟨y, -, h⟩
    · obtain ⟨refusal, hrefusal, rfl⟩ := mapError_eq_error_iff.mp hitem
      obtain ⟨fault, hfault, rfl⟩ :=
        MemoryMap.validate_eq_error_iff.mp ((haccess x address refusal).mp hrefusal)
      obtain ⟨start, hstart, hsum⟩ := effectiveAddress_eq_ok_iff.mp haddress
      exact .access (hregister hx) hstart hsum hfault
    · exact absurd h (hfinish x address y e hx)
  · intro h
    have hok (hrt : rt < m.registers.registers.length) : ∃ x, check = .ok x := by
      cases hx : check with
      | ok x => exact ⟨x, rfl⟩
      | error e => exact absurd ((hcheck e).mp hx).1 (Nat.not_le.mpr hrt)
    cases h with
    | register hle => exact bind_eq_error_iff.mpr (.inl ((hcheck _).mpr ⟨hle, rfl⟩))
    | base hrt hle =>
      obtain ⟨x, hx⟩ := hok hrt
      have hread := RegisterFile.read_eq_error_iff.mpr ⟨hle, rfl⟩
      exact bind_eq_error_iff.mpr (.inr ⟨x, hx, bind_eq_error_iff.mpr
        (.inl (map_eq_error_iff.mpr hread))⟩)
    | access hrt hbase hsum hfault =>
      obtain ⟨x, hx⟩ := hok hrt
      have haddress := effectiveAddress_eq_ok_iff.mpr ⟨_, hbase, hsum⟩
      have hitem := (haccess x _ _).mpr (MemoryMap.validate_eq_error_iff.mpr ⟨_, hfault, rfl⟩)
      exact bind_eq_error_iff.mpr (.inr ⟨x, hx, bind_eq_error_iff.mpr (.inr ⟨_, haddress,
        bind_eq_error_iff.mpr (.inl (mapError_eq_error_iff.mpr ⟨_, hitem, rfl⟩))⟩)⟩)

theorem load_eq_error_iff :
    m.load rt base offset width = .error e ↔ m.Refused .load rt base offset width e := by
  refine refused_iff (fun _ => RegisterFile.get_eq_error_iff) (fun _ _ _ => map_eq_error_iff)
    fun r address raw e hget h => ?_
  -- the register that was looked at first is there to be written at the end
  obtain ⟨previous, hwrite⟩ :=
    RegisterFile.exists_write (RegisterFile.lt_of_get hget) (extended width raw)
  rw [hwrite] at h
  cases h

theorem store_eq_error_iff :
    m.store rt base offset width = .error e ↔ m.Refused .store rt base offset width e :=
  refused_iff (fun _ => RegisterFile.read_eq_error_iff) (fun _ _ _ => map_eq_error_iff)
    fun _ _ _ _ _ => nofun

end

/-! ## The number of registers -/

theorem length_step (m : Machine) (operation : Operation) :
    (m.step operation).2.registers.registers.length = m.registers.registers.length := by
  unfold step
  split
  · rename_i h
    cases operation with
    | register operation =>
      obtain ⟨⟨_, registers⟩, hperform, he⟩ := map_eq_ok_iff.mp h
      cases he
      exact RegisterFile.length_of_perform hperform
    | load rt base offset width =>
      obtain ⟨⟨_, _⟩, hload, he⟩ := map_eq_ok_iff.mp h
      cases he
      obtain ⟨_, _, -, -, hwrite, rfl⟩ := load_eq_ok_iff.mp hload
      obtain ⟨-, rfl⟩ := RegisterFile.write_eq_ok_iff.mp hwrite
      exact RegisterFile.length_setValue ..
    | store rt base offset width =>
      obtain ⟨⟨_, _⟩, hstore, he⟩ := map_eq_ok_iff.mp h
      cases he
      obtain ⟨_, -, -, -, rfl⟩ := store_eq_ok_iff.mp hstore
      rfl
    | effectiveAddress | probe | loadMemory | storeMemory | fetch =>
      obtain ⟨_, -, he⟩ := map_eq_ok_iff.mp h
      cases he
      rfl
    | image base bytes =>
      cases h
      rfl
  · rfl

theorem length_run (m : Machine) (operations : List Operation) :
    (m.run operations).2.registers.registers.length = m.registers.registers.length := by
  induction operations generalizing m with
  | nil => rfl
  | cons operation operations ih => exact (ih _).trans (m.length_step operation)

/-! ## Failures -/

open Procedure (exec)

/-- A procedure that does in place what `step` does fails only on a machine it has not changed. -/
theorem unchanged_of_error {m m' : Machine} {operation : Operation} {e : Error}
    (h : exec (performInPlace operation) m = (.error e, m')) : m' = m := by
  rw [exec_performInPlace] at h
  unfold step at h
  split at h
  · cases h
  · cases h
    rfl

/-- On every machine that operations lead to there are the registers and the map there were at the
start, and no operation that fails leaves a trace, though none is undone. Loads and stores fail with
the first thing wrong and with nothing else, so that a load whose access is accepted writes its
register. -/
theorem failures_leave_no_trace (start : Machine) (operations : List Operation) :
    let m := (start.run operations).2
    (m.registers.registers.length = start.registers.registers.length ∧
      m.memory.map = start.memory.map) ∧
    (∀ operation, exec (performInPlace operation) m = m.step operation ∧
      ∀ e m', exec (performInPlace operation) m = (.error e, m') → m' = m) ∧
    ∀ rt base offset width,
      (∀ e, m.load rt base offset width = .error e ↔ m.Refused .load rt base offset width e) ∧
      (∀ e, m.store rt base offset width = .error e ↔ m.Refused .store rt base offset width e) ∧
      ∀ r address raw, m.registers.get rt = .ok r → m.effectiveAddress base offset = .ok address →
        m.memory.load address width = .ok raw →
        ∃ previous registers,
          m.registers.write rt (extended width raw) = .ok (previous, registers) ∧
            m.load rt base offset width = .ok (address, { m with registers }) := by
  intro m
  refine ⟨⟨start.length_run operations, start.map_run operations⟩,
    fun operation => ⟨exec_performInPlace operation m, fun e m' => unchanged_of_error⟩,
    fun rt base offset width => ⟨fun e => load_eq_error_iff, fun e => store_eq_error_iff, ?_⟩⟩
  intro r address raw hget haddress hraw
  obtain ⟨previous, hwrite⟩ :=
    RegisterFile.exists_write (RegisterFile.lt_of_get hget) (extended width raw)
  obtain ⟨hallowed, rfl⟩ := Memory.load_eq_ok_iff.mp hraw
  exact ⟨previous, _, hwrite, load_eq_ok_iff.mpr ⟨previous, _, haddress, hallowed, hwrite, rfl⟩⟩

/-- After a reset for another map the base is new and the registers are as many, and the register
that is missing is reported before the base that is. -/
theorem failures_leave_no_trace_after_reset :
    let m := ((fresh .standard).run [.register (.write 9 42), .register (.reset .compactTextAtZero)]).2
    m.load 9 28 1 .word = .error (.address ⟨0x1801, .load, .unaligned .word⟩) ∧
      m.store 32 33 1 .word = .error (.invalidRegisterNumber 32) ∧
      ∀ e m', exec (performInPlace (.load 9 28 1 .word)) m = (.error e, m') → m' = m := by
  intro m
  obtain ⟨-, htrace, hrefused⟩ := failures_leave_no_trace (fresh .standard)
    [.register (.write 9 42), .register (.reset .compactTextAtZero)]
  refine ⟨((hrefused 9 28 1 .word).1 _).mpr ?_, ((hrefused 32 33 1 .word).2.1 _).mpr ?_,
    (htrace (.load 9 28 1 .word)).2⟩
  · have hbase : m.registers.read 28 = .ok 0x1800 := rfl
    exact .access (by decide) hbase (by decide) (.unaligned (by decide))
  · exact .register (by decide)

end Machine

end MipsMemory
