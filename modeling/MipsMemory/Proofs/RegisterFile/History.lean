import Mathlib.Data.List.Induction
import Mathlib.Order.Bounds.Basic
import MipsMemory.Proofs.RegisterFile.Slots

/-!
A register file as a map from numbers to values. What a register holds is told from the operations
so far alone: the value of the last write to it or of the last reset, whichever came later, or the
value it began with. Main statement: a list of registers makes a file exactly if each is numbered by
its place, and in every file the registers keep names and numbers, are there to be read and written
up to the number of registers, and hold what the operations say; nothing survives a reset.
-/

namespace MipsMemory

namespace RegisterFile

/-! ## Lists that make a file -/

/-- Each register's number is its place. -/
def Numbered (registers : List Register) : Prop :=
  ∀ (i : Nat) (r : Register), registers[i]? = some r → r.number = i

/-- The places whose registers have another number. -/
def misplaced (registers : List Register) : Set Nat :=
  {i | ∃ r, registers[i]? = some r ∧ r.number ≠ i}

variable {registers : List Register} {slot : Nat}

theorem mismatch?_eq_none_iff :
    mismatch? slot registers = none ↔
      ∀ i r, registers[i]? = some r → r.number = slot + i := by
  induction registers generalizing slot with
  | nil => simp [mismatch?]
  | cons first rest ih =>
    by_cases h : first.number = slot
    · rw [mismatch?, if_pos h, ih]
      constructor
      · rintro hrest (_ | i) r hr
        · obtain rfl := Option.some.inj hr
          exact h
        · rw [hrest i r hr, Nat.add_right_comm, Nat.add_assoc]
      · intro hall i r hr
        rw [hall (i + 1) r hr, Nat.add_right_comm, Nat.add_assoc]
    · rw [mismatch?, if_neg h]
      exact ⟨nofun, fun hall => absurd (hall 0 first rfl) h⟩

/-- The first mismatch comes after registers that are numbered by their places. -/
theorem mismatch?_eq_some_iff {place : Nat × Nat} :
    mismatch? slot registers = some place ↔
      ∃ i r, place = (slot + i, r.number) ∧ registers[i]? = some r ∧ r.number ≠ slot + i ∧
        ∀ j < i, ∀ r, registers[j]? = some r → r.number = slot + j := by
  induction registers generalizing slot with
  | nil => simp [mismatch?]
  | cons first rest ih =>
    by_cases h : first.number = slot
    · rw [mismatch?, if_pos h, ih]
      constructor
      · rintro ⟨i, r, rfl, hr, hne, hbefore⟩
        refine ⟨i + 1, r, by rw [Nat.add_right_comm, Nat.add_assoc], hr, by omega, ?_⟩
        rintro (_ | j) hj r' hr'
        · obtain rfl := Option.some.inj hr'
          exact h
        · have := hbefore j (by omega) r' hr'
          omega
      · rintro ⟨_ | i, r, rfl, hr, hne, hbefore⟩
        · obtain rfl := Option.some.inj hr
          exact absurd h hne
        · refine ⟨i, r, by rw [Nat.add_right_comm, Nat.add_assoc], hr, by omega, ?_⟩
          intro j hj r' hr'
          have := hbefore (j + 1) (by omega) r' hr'
          omega
    · rw [mismatch?, if_neg h, Option.some.injEq]
      constructor
      · rintro rfl
        exact ⟨0, first, rfl, rfl, h, fun j hj => absurd hj (Nat.not_lt_zero j)⟩
      · rintro ⟨_ | i, r, rfl, hr, -, hbefore⟩
        · obtain rfl := Option.some.inj hr
          rfl
        · exact absurd (hbefore 0 (Nat.zero_lt_succ i) first rfl) h

theorem ofRegisters_eq_ok_iff {f : RegisterFile} :
    ofRegisters registers = .ok f ↔ Numbered registers ∧ f = ⟨registers, 0, 0, 0⟩ := by
  have hnone : mismatch? 0 registers = none ↔ Numbered registers := by
    simp only [mismatch?_eq_none_iff, Nat.zero_add, Numbered]
  rw [← hnone]
  unfold ofRegisters
  split <;> rename_i h <;> simp [h, eq_comm]

theorem ofRegisters_eq_error_iff {e : Error} :
    ofRegisters registers = .error e ↔
      ∃ slot r, IsLeast (misplaced registers) slot ∧ registers[slot]? = some r ∧
        e = .registerSlotMismatch slot r.number := by
  have hsome (place : Nat × Nat) : mismatch? 0 registers = some place ↔
      ∃ slot r, place = (slot, r.number) ∧ registers[slot]? = some r ∧
        IsLeast (misplaced registers) slot := by
    simp only [mismatch?_eq_some_iff, Nat.zero_add]
    refine exists_congr fun slot => exists_congr fun r => and_congr_right fun _ =>
      and_congr_right fun hr => ⟨?_, ?_⟩
    · rintro ⟨hne, hbefore⟩
      refine ⟨⟨r, hr, hne⟩, ?_⟩
      rintro i ⟨r', hr', hne'⟩
      exact Nat.le_of_not_lt fun hlt => hne' (hbefore i hlt r' hr')
    · rintro ⟨⟨r', hr', hne⟩, hleast⟩
      obtain rfl := Option.some.inj (hr.symm.trans hr')
      refine ⟨hne, fun i hi r' hr' => Decidable.byContradiction fun hne' => ?_⟩
      exact absurd (hleast ⟨r', hr', hne'⟩) (Nat.not_le.mpr hi)
  unfold ofRegisters
  constructor
  · intro h
    split at h
    · rename_i hplace
      obtain ⟨_, r, heq, hr, hleast⟩ := (hsome _).mp hplace
      cases heq
      cases h
      exact ⟨_, r, hleast, hr, rfl⟩
    · cases h
  · rintro ⟨slot, r, hleast, hr, rfl⟩
    rw [(hsome (slot, r.number)).mpr ⟨slot, r, rfl, hr, hleast⟩]

/-- A file as it is made: from a list of registers, or for a memory map. -/
inductive Made : RegisterFile → Prop
  | ofList {registers : List Register} {f : RegisterFile} (h : ofRegisters registers = .ok f) :
    Made f
  | forMap (m : MemoryMap) : Made (fresh m)

/-! ## Names and numbers -/

/-- What there is of the registers besides their values. -/
def labels (f : RegisterFile) : List (String × Nat) :=
  f.registers.map fun r => (r.name, r.number)

theorem names_eq_of_labels_eq {f g : RegisterFile} (h : f.labels = g.labels) :
    f.registers.map Register.name = g.registers.map Register.name := by
  simpa only [labels, List.map_map, Function.comp_def] using congrArg (List.map Prod.fst) h

theorem numbers_eq_of_labels_eq {f g : RegisterFile} (h : f.labels = g.labels) :
    f.registers.map Register.number = g.registers.map Register.number := by
  simpa only [labels, List.map_map, Function.comp_def] using congrArg (List.map Prod.snd) h

theorem map_label_setValue (registers : List Register) (number : Nat) (value : UInt32) :
    (setValue registers number value).map (fun r => (r.name, r.number)) =
      registers.map fun r => (r.name, r.number) := by
  apply List.ext_getElem?
  intro i
  rw [List.getElem?_map, List.getElem?_map, getElem?_setValue]
  split
  · cases registers[i]? <;> rfl
  · rfl

/-- A reset depends on names and numbers only. -/
theorem reset_eq_of_labels_eq {f g : RegisterFile} (h : f.labels = g.labels) (m : MemoryMap) :
    f.reset m = g.reset m := by
  have hcleared (f : RegisterFile) : f.registers.map ({ · with value := 0 }) =
      f.labels.map fun (name, number) => ⟨name, number, 0⟩ := by
    rw [labels, List.map_map]
    rfl
  simp only [reset, hcleared, h]

theorem labels_reset (f : RegisterFile) (m : MemoryMap) : (f.reset m).labels = f.labels := by
  have hcleared : (f.registers.map ({ · with value := 0 })).map (fun r => (r.name, r.number)) =
      f.labels := by
    rw [List.map_map]
    rfl
  unfold reset
  simp only [labels]
  split
  · rw [map_label_setValue, map_label_setValue, hcleared, labels]
  · rw [hcleared, labels]

theorem labels_fresh (m : MemoryMap) : (fresh m).labels = blank.labels := labels_reset blank m

theorem Made.numbered {f : RegisterFile} (h : Made f) : Numbered f.registers := by
  cases h with
  | ofList h =>
    obtain ⟨hnumbered, rfl⟩ := ofRegisters_eq_ok_iff.mp h
    exact hnumbered
  | forMap m =>
    have hblank : blank.registers.map Register.number = List.range 32 := by decide
    intro i r hr
    have hnumber : ((fresh m).registers.map Register.number)[i]? = some r.number := by
      rw [List.getElem?_map, hr, Option.map_some]
    rw [numbers_eq_of_labels_eq (labels_fresh m), hblank] at hnumber
    obtain ⟨hi, heq⟩ := List.getElem?_eq_some_iff.mp hnumber
    rw [← heq, List.getElem_range]

/-! ## Values -/

/-- What a reset leaves in a register of a file of some size. -/
def resetValue (m : MemoryMap) (size number : Nat) : UInt32 :=
  if size = conventionalNames.length then
    if number = stackPointer then m.stackPointer
    else if number = globalPointer then m.globalPointer
    else 0
  else 0

theorem read_reset (f : RegisterFile) (m : MemoryMap) (number : Nat) :
    (f.reset m).read number =
      if number < f.registers.length then .ok (resetValue m f.registers.length number)
      else .error (.invalidRegisterNumber number) := by
  by_cases hn : number < f.registers.length
  · rw [if_pos hn, read_eq_ok_iff]
    unfold reset resetValue
    simp only [List.length_map]
    by_cases hsize : f.registers.length = conventionalNames.length
    · rw [if_pos hsize, if_pos hsize]
      simp only [getElem?_setValue, List.getElem?_map, List.getElem?_eq_getElem hn, Option.map_some,
        @eq_comm _ stackPointer, @eq_comm _ globalPointer]
      split
      · split <;> exact ⟨_, rfl, rfl⟩
      · split <;> exact ⟨_, rfl, rfl⟩
    · rw [if_neg hsize, if_neg hsize, List.getElem?_map, List.getElem?_eq_getElem hn]
      exact ⟨_, rfl, rfl⟩
  · rw [if_neg hn, read_eq_error_iff, length_reset]
    exact ⟨Nat.not_lt.mp hn, rfl⟩

/-- Gives the register of a number a value: a write to it, or a reset. -/
def Operation.sets (number : Nat) : Operation → Bool
  | .write written _ => written = number
  | .reset _ => true
  | .read _ | .get _ | .lookup _ | .setPc _ | .setHi _ | .setLo _ => false

/-- What a register of a file of some size holds after operations: what the last write to it or the
last reset gives it, whichever is later, or what it began with. -/
def valueAfter (size number : Nat) (initial : UInt32) (operations : List Operation) : UInt32 :=
  match (operations.filter (·.sets number)).getLast? with
  | some (.write _ value) => value
  | some (.reset m) => resetValue m size number
  | _ => initial

/-- The file after operations, failed ones included. -/
def after (f : RegisterFile) (operations : List Operation) : RegisterFile :=
  operations.foldl (fun f operation => (f.step operation).2) f

theorem after_concat (f : RegisterFile) (operations : List Operation) (operation : Operation) :
    f.after (operations ++ [operation]) = ((f.after operations).step operation).2 := by
  simp [after]

theorem valueAfter_concat (size number : Nat) (initial : UInt32) (operations : List Operation)
    (operation : Operation) :
    valueAfter size number initial (operations ++ [operation]) =
      match operation with
      | .write written value =>
        if written = number then value else valueAfter size number initial operations
      | .reset m => resetValue m size number
      | _ => valueAfter size number initial operations := by
  unfold valueAfter
  rw [List.filter_append]
  cases operation with
  | write written value => by_cases h : written = number <;> simp [Operation.sets, h]
  | reset m => simp [Operation.sets]
  | read | get | lookup | setPc | setHi | setLo => simp [Operation.sets]

/-! ## Steps -/

/-- What one operation does to names, numbers and values. -/
theorem step_cases (f : RegisterFile) (operation : Operation) :
    (∃ number value previous, operation = .write number value ∧
      f.write number value = .ok (previous, (f.step operation).2)) ∨
    (∃ m, operation = .reset m ∧ (f.step operation).2 = f.reset m) ∨
    ((f.step operation).2.registers = f.registers ∧ (∀ m, operation ≠ .reset m) ∧
      ∀ number value, operation = .write number value → f.registers.length ≤ number) := by
  cases operation with
  | write number value =>
    cases h : f.write number value with
    | ok result =>
      obtain ⟨previous, g⟩ := result
      refine .inl ⟨number, value, previous, rfl, ?_⟩
      simp [step, perform, h, Except.map]
    | error e =>
      refine .inr (.inr ⟨by simp [step, perform, h, Except.map], nofun, ?_⟩)
      rintro _ _ ⟨⟩
      rw [write, map_eq_error_iff, read_eq_error_iff] at h
      exact h.1
  | reset m => exact .inr (.inl ⟨m, rfl, rfl⟩)
  | read number =>
    refine .inr (.inr ⟨?_, nofun, nofun⟩)
    cases h : f.read number <;> simp [step, perform, h, Except.map]
  | get number =>
    refine .inr (.inr ⟨?_, nofun, nofun⟩)
    cases h : f.get number <;> simp [step, perform, h, Except.map]
  | lookup name =>
    refine .inr (.inr ⟨?_, nofun, nofun⟩)
    cases h : f.lookup name <;> simp [step, perform, h, Except.map]
  | setPc | setHi | setLo => exact .inr (.inr ⟨rfl, nofun, nofun⟩)

theorem labels_step (f : RegisterFile) (operation : Operation) :
    (f.step operation).2.labels = f.labels := by
  obtain ⟨number, value, previous, -, hwrite⟩ | ⟨m, -, hreset⟩ | ⟨hkept, -⟩ := f.step_cases operation
  · obtain ⟨-, hg⟩ := write_eq_ok_iff.mp hwrite
    rw [hg]
    exact map_label_setValue ..
  · rw [hreset, labels_reset]
  · rw [labels, hkept, labels]

/-- One operation in a file that holds what earlier operations say. -/
theorem read_step {f : RegisterFile} {size number : Nat} {initial : UInt32}
    {operations : List Operation} (hsize : f.registers.length = size)
    (h : f.read number = .ok (valueAfter size number initial operations)) (operation : Operation) :
    (f.step operation).2.read number =
      .ok (valueAfter size number initial (operations ++ [operation])) := by
  rw [valueAfter_concat]
  obtain ⟨written, value, previous, rfl, hwrite⟩ | ⟨m, rfl, hreset⟩ | ⟨hkept, hreset, hwrite⟩ :=
    f.step_cases operation
  · rw [read_of_write hwrite, h]
    exact (apply_ite ..).symm
  · rw [hreset, read_reset, if_pos (lt_of_read h), hsize]
  · have hread : (f.step operation).2.read number = f.read number := by
      simp only [read, get, hkept]
    rw [hread, h]
    cases operation with
    | write written value =>
      have hne : written ≠ number := by
        have := hwrite written value rfl
        have := lt_of_read h
        omega
      simp [hne]
    | reset m => exact absurd rfl (hreset m)
    | read | get | lookup | setPc | setHi | setLo => rfl

/-! ## Runs -/

theorem labels_after (f : RegisterFile) (operations : List Operation) :
    (f.after operations).labels = f.labels := by
  induction operations using List.reverseRecOn with
  | nil => rfl
  | append_singleton operations operation ih => rw [after_concat, labels_step, ih]

theorem length_after (f : RegisterFile) (operations : List Operation) :
    (f.after operations).registers.length = f.registers.length := by
  have := congrArg List.length (f.labels_after operations)
  simpa only [labels, List.length_map] using this

theorem read_after {f : RegisterFile} {number : Nat} {initial : UInt32}
    (h : f.read number = .ok initial) (operations : List Operation) :
    (f.after operations).read number =
      .ok (valueAfter f.registers.length number initial operations) := by
  induction operations using List.reverseRecOn with
  | nil => exact h
  | append_singleton operations operation ih =>
    rw [after_concat]
    exact read_step (f.length_after operations) ih operation

/-- A file that came from another by operations, seen as a map from numbers to values. -/
structure Tracks (f : RegisterFile) (operations : List Operation) (g : RegisterFile) : Prop where
  length : g.registers.length = f.registers.length
  names : g.registers.map Register.name = f.registers.map Register.name
  numbers : g.registers.map Register.number = List.range f.registers.length
  read : ∀ number < f.registers.length, ∃ initial, f.read number = .ok initial ∧
    g.read number = .ok (valueAfter f.registers.length number initial operations)
  missing : ∀ number, f.registers.length ≤ number →
    g.read number = .error (.invalidRegisterNumber number)
  write : ∀ number value, (g.write number value).map Prod.fst = g.read number

theorem Made.tracks {f : RegisterFile} (h : Made f) (operations : List Operation) :
    f.Tracks operations (f.after operations) where
  length := f.length_after operations
  names := names_eq_of_labels_eq (f.labels_after operations)
  numbers := by
    refine (numbers_eq_of_labels_eq (f.labels_after operations)).trans (List.ext_getElem? fun i => ?_)
    rw [List.getElem?_map]
    cases hi : f.registers[i]? with
    | none => simpa using hi
    | some r =>
      have hlt := (List.getElem?_eq_some_iff.mp hi).1
      simp [h.numbered i r hi, hlt]
  read number hnumber := by
    obtain ⟨r, hr⟩ := exists_get hnumber
    have hread : f.read number = .ok r.value := map_eq_ok_iff.mpr ⟨r, hr, rfl⟩
    exact ⟨r.value, hread, read_after hread operations⟩
  missing number hnumber := read_eq_error_iff.mpr ⟨by rwa [f.length_after], rfl⟩
  write number value := by
    unfold RegisterFile.write
    cases (f.after operations).read number <;> rfl

/-- A list makes a file exactly if each register is numbered by its place, and is refused for the
least place where it is not. Every file keeps its registers' names and numbers through any
operations, holds in each register what the operations say, and answers a write with what a read
would have shown; once it is reset, a file made for a map is the one made for the map it is reset
to. -/
theorem behaves_as_map :
    (∀ registers f, ofRegisters registers = .ok f ↔
      Numbered registers ∧ f = ⟨registers, 0, 0, 0⟩) ∧
    (∀ registers e, ofRegisters registers = .error e ↔
      ∃ slot r, IsLeast (misplaced registers) slot ∧ registers[slot]? = some r ∧
        e = .registerSlotMismatch slot r.number) ∧
    (∀ f, Made f → ∀ operations, f.Tracks operations (f.after operations)) ∧
    ∀ m m' operations, ((fresh m).after operations).reset m' = fresh m' := by
  refine ⟨fun _ _ => ofRegisters_eq_ok_iff, fun _ _ => ofRegisters_eq_error_iff,
    fun _ hmade => hmade.tracks, fun m m' operations => ?_⟩
  refine reset_eq_of_labels_eq ?_ m'
  rw [labels_after, labels_fresh]

/-- Thirty-two registers made from a list have a stack pointer to reset too, eight have not, and a
list with two registers out of place is refused for the first of them. -/
theorem behaves_as_map_listed :
    let m := MemoryMap.standard
    let listed (count : Nat) := (List.range count).map fun i => (⟨"r", i, 5⟩ : Register)
    let operations : List Operation :=
      [.write 29 1, .reset m, .write 3 7, .write 40 9, .setHi 2, .read 40, .write 3 8]
    Made ⟨listed 32, 0, 0, 0⟩ ∧ Made ⟨listed 8, 0, 0, 0⟩ ∧
      (after ⟨listed 32, 0, 0, 0⟩ operations).read 29 = .ok m.stackPointer ∧
      (after ⟨listed 8, 0, 0, 0⟩ operations).read 3 = .ok 8 ∧
      (after ⟨listed 8, 0, 0, 0⟩ operations).read 29 = .error (.invalidRegisterNumber 29) ∧
      ofRegisters [⟨"a", 0, 0⟩, ⟨"b", 3, 0⟩, ⟨"c", 1, 0⟩] = .error (.registerSlotMismatch 1 3) ∧
      ((fresh .compactTextAtZero).after operations).reset m = fresh m := by
  intro m listed operations
  obtain ⟨haccept, hrefuse, htracks, hreset⟩ := behaves_as_map
  have hlisted (count : Nat) : Made ⟨listed count, 0, 0, 0⟩ := by
    refine .ofList ((haccept (listed count) _).mpr ⟨?_, rfl⟩)
    intro i r hr
    obtain ⟨j, hj, rfl⟩ := Option.map_eq_some_iff.mp (List.getElem?_map .. ▸ hr)
    obtain ⟨hlt, rfl⟩ := List.getElem?_eq_some_iff.mp hj
    simp
  refine ⟨hlisted 32, hlisted 8, ?_, ?_, ?_, ?_, hreset .compactTextAtZero m operations⟩
  · obtain ⟨initial, -, hread⟩ := (htracks _ (hlisted 32) operations).read 29 (by decide)
    exact hread
  · obtain ⟨initial, -, hread⟩ := (htracks _ (hlisted 8) operations).read 3 (by decide)
    exact hread
  · exact (htracks _ (hlisted 8) operations).missing 29 (by decide)
  · refine (hrefuse _ _).mpr ⟨1, ⟨"b", 3, 0⟩, ⟨⟨_, rfl, by decide⟩, ?_⟩, rfl, rfl⟩
    rintro (_ | i) ⟨r, hr, hne⟩
    · obtain rfl := Option.some.inj hr
      exact absurd rfl hne
    · exact Nat.succ_le_succ (Nat.zero_le i)

end RegisterFile

end MipsMemory
