import MipsMemory.Proofs.Allocator.Limits
import MipsMemory.Proofs.Assembly.Operations
import MipsMemory.Proofs.Machine.ReadOnlyText

/-!
Who says what may be accessed. A layout and a machine each come to a verdict of their own, from
spans that were taken from a map once and for all, and a machine gives it in several places. Main
statement: for one map they agree everywhere, refusals included, and nothing that a machine does
changes a verdict.
-/

namespace MipsMemory

namespace Validator

/-- The validator answers what the map itself does. -/
structure Decides (v : Validator) (m : MemoryMap) : Prop where
  validate : ∀ address kind width, v.validate address kind width = m.validate address kind width
  validateFetch : ∀ address, v.validateFetch address = m.validateFetch address

theorem decides_ofMap (m : MemoryMap) : (ofMap m).Decides m where
  validate := validate_ofMap m
  validateFetch := validateFetch_ofMap m

end Validator

/-- The verdict on an access: that it is allowed, or the refusal. -/
def verdict {α : Type} (access : Except AddressError α) : Except AddressError Unit :=
  access.map fun _ => ()

@[simp] theorem verdict_map {α β : Type} (access : Except AddressError α) (f : α → β) :
    verdict (access.map f) = verdict access := by
  cases access <;> rfl

namespace Memory

variable (mem : Memory) (address : UInt32) (width : Width)

@[simp] theorem verdict_load :
    verdict (mem.load address width) = verdict (mem.map.validate address .load width) :=
  verdict_map ..

@[simp] theorem verdict_store (value : UInt64) :
    verdict (mem.store address width value) = verdict (mem.map.validate address .store width) :=
  verdict_map ..

@[simp] theorem verdict_fetch :
    verdict (mem.fetch address) = verdict (mem.map.validateFetch address) :=
  verdict_map ..

end Memory

namespace Machine

/-! ## Machines and validators -/

/-- The machine comes to the verdicts of a validator, whichever way it is asked and whatever there is
to store. -/
structure Obeys (machine : Machine) (v : Validator) : Prop where
  probe : ∀ address kind width,
    machine.probe address kind width = checked (v.validate address kind width)
  load : ∀ address width,
    verdict (machine.memory.load address width) = verdict (v.validate address .load width)
  store : ∀ address width value,
    verdict (machine.memory.store address width value) = verdict (v.validate address .store width)
  fetch : ∀ address, verdict (machine.memory.fetch address) = verdict (v.validateFetch address)

variable {machine : Machine} {v : Validator}

theorem obeys_of_decides (h : v.Decides machine.memory.map) : machine.Obeys v where
  probe address kind width := by rw [h.validate, Machine.probe, Memory.validate_validator]
  load address width := by rw [h.validate, Memory.verdict_load]
  store address width value := by rw [h.validate, Memory.verdict_store]
  fetch address := by rw [h.validateFetch, Memory.verdict_fetch]

/-- No operation changes the map, be it a store, an image or a reset of the registers. -/
theorem obeys_run (h : v.Decides machine.memory.map) (operations : List Operation) :
    (machine.run operations).2.Obeys v :=
  obeys_of_decides (by rwa [machine.map_run])

end Machine

theorem Assembly.validator_eq_of_layout {m : MemoryMap} {statements : List Statement}
    {u : Assembled} (h : layout m statements = .ok u) : u.layout.validator = .ofMap m := by
  obtain ⟨operations, -, hfinish⟩ := exists_run_of_layout h
  rw [Layout.validator, ← hfinish, Allocator.map_finish_run]

namespace Machine

/-- The layout of any unit and any machine that began with the same map come to the verdicts of that
map, whatever the machine has done since: the address, the kind and the fault of a refusal included.
And whatever machine a run begins with, its verdicts are those of one validator all along. -/
theorem one_verdict (m : MemoryMap) :
    (∀ statements u, Assembly.layout m statements = .ok u →
      u.layout.validator.Decides m ∧
        ∀ operations, ((fresh m).run operations).2.Obeys u.layout.validator) ∧
    ∀ machine : Machine, ∃ v, ∀ operations, (machine.run operations).2.Obeys v := by
  constructor
  · intro statements u h
    have hdecides : u.layout.validator.Decides m := by
      rw [Assembly.validator_eq_of_layout h]
      exact Validator.decides_ofMap m
    exact ⟨hdecides, fun operations => obeys_run hdecides operations⟩
  · intro machine
    exact ⟨_, obeys_run (Validator.decides_ofMap machine.memory.map)⟩

/-- A machine that is given an image and stores, and whose registers are reset for another map: it
still refuses what the layout of a unit under its own map does, though the other would allow it. -/
theorem one_verdict_after_reset :
    let m := MemoryMap.compactDataAtZero
    let statements : List Statement := [⟨none, ".data", []⟩, ⟨some "x", ".word", [.int 1]⟩]
    let operations : List Operation :=
      [.image 0x00400000 [1, 2, 3, 4], .storeMemory 0 .word 0xffffffff,
        .storeMemory 0x3000 .word 0, .register (.reset MemoryMap.standard), .store 29 28 4 .half]
    let machine := ((fresh m).run operations).2
    MemoryMap.standard.validateFetch 0x00400000 = .ok 0x00400000 ∧
      ∃ u, Assembly.layout m statements = .ok u ∧ u.layout.used.get .data = 4 ∧
        verdict (u.layout.validator.validateFetch 0x00400000) =
          .error ⟨0x00400000, .load, .outOfRange⟩ ∧
        verdict (machine.memory.fetch 0x00400000) = .error ⟨0x00400000, .load, .outOfRange⟩ ∧
        machine.probe 0x3000 .store .word = .error (.address ⟨0x3000, .store, .outOfRange⟩) := by
  intro m statements operations machine
  have hlayout : (Assembly.layout m statements).toOption.map (·.layout.used.get .data) = some 4 := by
    decide +kernel
  obtain ⟨u, hu, hused⟩ := exists_of_toOption_map hlayout
  obtain ⟨hdecides, hobeys⟩ := (one_verdict m).1 statements u hu
  refine ⟨rfl, u, hu, hused, ?_, ?_, ?_⟩
  · rw [hdecides.validateFetch]
    rfl
  · rw [(hobeys operations).fetch, hdecides.validateFetch]
    rfl
  · rw [(hobeys operations).probe, hdecides.validate]
    rfl

end Machine

end MipsMemory
