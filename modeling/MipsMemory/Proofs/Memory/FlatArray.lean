import Mathlib.Algebra.BigOperators.Ring.Finset
import Mathlib.Tactic.Ring
import MipsMemory.Proofs.Access.Inclusion
import MipsMemory.Proofs.Memory.Frame

/-!
Memory as a flat array: a total function from addresses to bytes, all of them zero at first.
`FlatMemory.Step` says of the bytes alone what a call answers and leaves; the map only decides which
accesses are accepted. Main statement: under any sequence of calls memory answers what the flat
array answers and ends with the bytes it ends with, and the flat array leaves no choice in either.
-/

namespace MipsMemory

namespace Memory

/-! ## Runs of operations -/

/-- A call that a memory can be asked to carry out. -/
inductive Operation where
  | store (address : UInt32) (width : Width) (value : UInt64)
  | image (base : UInt32) (bytes : List UInt8)
  | load (address : UInt32) (width : Width)
  | fetch (address : UInt32)
  deriving DecidableEq, Repr

/-- What an operation answers. -/
inductive Outcome where
  | done
  | contents (value : UInt64)
  | instruction (word : UInt32)
  deriving DecidableEq, Repr

/-- Carries an operation out; the memory in the answer is the one after it. -/
def perform (mem : Memory) : Operation → Except AddressError (Outcome × Memory)
  | .store address width value => (mem.store address width value).map fun mem => (.done, mem)
  | .image base bytes => .ok (.done, mem.place base bytes)
  | .load address width => (mem.load address width).map fun value => (.contents value, mem)
  | .fetch address => (mem.fetch address).map fun word => (.instruction word, mem)

/-- The answer and the memory afterwards; a failed operation leaves memory alone. -/
def step (mem : Memory) (operation : Operation) : Except AddressError Outcome × Memory :=
  match mem.perform operation with
  | .ok (outcome, mem) => (.ok outcome, mem)
  | .error e => (.error e, mem)

/-- The answers to a sequence of operations, failed ones included, and the memory at the end. -/
def run (mem : Memory) : List Operation → List (Except AddressError Outcome) × Memory
  | [] => ([], mem)
  | operation :: rest =>
    let (answer, mem) := mem.step operation
    let (answers, mem) := mem.run rest
    (answer :: answers, mem)

end Memory

/-! ## The flat array -/

/-- A byte at every address. -/
abbrev FlatMemory := UInt32 → UInt8

namespace FlatMemory

open Memory (Operation Outcome)

/-- Zero everywhere. -/
def blank : FlatMemory := fun _ => 0

/-- The number that the bytes of an item make, the lowest byte first. -/
def value (f : FlatMemory) (address : UInt32) (width : Width) : Nat :=
  ∑ i ∈ Finset.range width.bytes, (f (address + UInt32.ofNat i)).toNat * 256 ^ i

/-- No byte of the item lies past the last address. -/
def Unwrapped (address : UInt32) (width : Width) : Prop :=
  ∀ i < width.bytes, address.toNat + i < UInt32.size

/-- `g` is `f` with the lowest bytes of a number in the place of an item. -/
structure Stored (f : FlatMemory) (address : UInt32) (width : Width) (value : UInt64)
    (g : FlatMemory) : Prop where
  set : ∀ i < width.bytes, (g (address + UInt32.ofNat i)).toNat = value.toNat / 256 ^ i % 256
  kept : ∀ x, (∀ i < width.bytes, address + UInt32.ofNat i ≠ x) → g x = f x

/-- `g` is `f` with an image laid over it that may be longer than memory: of the bytes that come to
lie at one address the last stays. -/
structure Imaged (f : FlatMemory) (base : UInt32) (bytes : List UInt8) (g : FlatMemory) :
    Prop where
  set : ∀ x j, (hj : j < bytes.length) → (base.toNat + j) % UInt32.size = x.toNat →
    (∀ k, j < k → k < bytes.length → (base.toNat + k) % UInt32.size ≠ x.toNat) → g x = bytes[j]
  kept : ∀ x, (∀ j < bytes.length, (base.toNat + j) % UInt32.size ≠ x.toNat) → g x = f x

/-- What one operation answers and leaves. -/
inductive Step (m : MemoryMap) (f : FlatMemory) :
    Operation → Except AddressError Outcome → FlatMemory → Prop
  | store {address : UInt32} {width : Width} {value : UInt64} {g : FlatMemory}
      (accepted : m.validate address .store width = .ok address)
      (unwrapped : Unwrapped address width) (stored : Stored f address width value g) :
      Step m f (.store address width value) (.ok .done) g
  | storeRefused {address : UInt32} {width : Width} (value : UInt64) {e : AddressError}
      (refused : m.validate address .store width = .error e) :
      Step m f (.store address width value) (.error e) f
  | image {base : UInt32} {bytes : List UInt8} {g : FlatMemory} (imaged : Imaged f base bytes g) :
      Step m f (.image base bytes) (.ok .done) g
  | load {address : UInt32} {width : Width} {contents : UInt64}
      (accepted : m.validate address .load width = .ok address)
      (unwrapped : Unwrapped address width) (sum : contents.toNat = f.value address width) :
      Step m f (.load address width) (.ok (.contents contents)) f
  | loadRefused {address : UInt32} {width : Width} {e : AddressError}
      (refused : m.validate address .load width = .error e) :
      Step m f (.load address width) (.error e) f
  | fetch {address : UInt32} {word : UInt32}
      (accepted : m.validateFetch address = .ok address)
      (loadable : m.validate address .load .word = .ok address)
      (unwrapped : Unwrapped address .word) (sum : word.toNat = f.value address .word) :
      Step m f (.fetch address) (.ok (.instruction word)) f
  | fetchRefused {address : UInt32} {e : AddressError}
      (refused : m.validateFetch address = .error e) : Step m f (.fetch address) (.error e) f

/-- Operations one after another, each with its answer. -/
inductive Run (m : MemoryMap) :
    FlatMemory → List Operation → List (Except AddressError Outcome) → FlatMemory → Prop
  | nil (f : FlatMemory) : Run m f [] [] f
  | cons {f g h : FlatMemory} {operation : Operation} {answer : Except AddressError Outcome}
      {operations : List Operation} {answers : List (Except AddressError Outcome)}
      (first : Step m f operation answer g) (rest : Run m g operations answers h) :
      Run m f (operation :: operations) (answer :: answers) h

/-! ### Determinacy -/

theorem Stored.unique {f g h : FlatMemory} {address : UInt32} {width : Width} {value : UInt64}
    (hg : Stored f address width value g) (hh : Stored f address width value h) : g = h := by
  funext x
  by_cases hx : ∃ i < width.bytes, address + UInt32.ofNat i = x
  · obtain ⟨i, hi, rfl⟩ := hx
    exact UInt8.toNat_inj.mp ((hg.set i hi).trans (hh.set i hi).symm)
  · have hout : ∀ i < width.bytes, address + UInt32.ofNat i ≠ x := fun i hi he => hx ⟨i, hi, he⟩
    exact (hg.kept x hout).trans (hh.kept x hout).symm

theorem Imaged.unique {f g h : FlatMemory} {base : UInt32} {bytes : List UInt8}
    (hg : Imaged f base bytes g) (hh : Imaged f base bytes h) : g = h := by
  funext x
  let Hit (j : Nat) : Prop := j < bytes.length ∧ (base.toNat + j) % UInt32.size = x.toNat
  by_cases hx : ∃ j, Hit j
  · obtain ⟨j, hj⟩ := hx
    -- of the indices that come to the address the greatest decides
    obtain ⟨hlast, hat⟩ : Hit (Nat.findGreatest Hit bytes.length) :=
      Nat.findGreatest_spec (Nat.le_of_lt hj.1) hj
    have hgreatest (k : Nat) (hk : Nat.findGreatest Hit bytes.length < k)
        (hlen : k < bytes.length) : (base.toNat + k) % UInt32.size ≠ x.toNat := fun he =>
      Nat.findGreatest_is_greatest hk (Nat.le_of_lt hlen) ⟨hlen, he⟩
    exact (hg.set x _ hlast hat hgreatest).trans (hh.set x _ hlast hat hgreatest).symm
  · have hout : ∀ j < bytes.length, (base.toNat + j) % UInt32.size ≠ x.toNat :=
      fun j hj he => hx ⟨j, hj, he⟩
    exact (hg.kept x hout).trans (hh.kept x hout).symm

theorem Step.unique {m : MemoryMap} {f g h : FlatMemory} {operation : Operation}
    {answer answer' : Except AddressError Outcome} (hg : Step m f operation answer g)
    (hh : Step m f operation answer' h) : answer = answer' ∧ g = h := by
  cases hg with
  | store accepted _ stored =>
    cases hh with
    | store _ _ stored' => exact ⟨rfl, stored.unique stored'⟩
    | storeRefused _ refused => cases accepted.symm.trans refused
  | storeRefused _ refused =>
    cases hh with
    | store accepted => cases accepted.symm.trans refused
    | storeRefused _ refused' =>
      cases refused.symm.trans refused'
      exact ⟨rfl, rfl⟩
  | image imaged =>
    cases hh with
    | image imaged' => exact ⟨rfl, imaged.unique imaged'⟩
  | load accepted _ sum =>
    cases hh with
    | load _ _ sum' =>
      cases UInt64.toNat_inj.mp (sum.trans sum'.symm)
      exact ⟨rfl, rfl⟩
    | loadRefused refused => cases accepted.symm.trans refused
  | loadRefused refused =>
    cases hh with
    | load accepted => cases accepted.symm.trans refused
    | loadRefused refused' =>
      cases refused.symm.trans refused'
      exact ⟨rfl, rfl⟩
  | fetch accepted _ _ sum =>
    cases hh with
    | fetch _ _ _ sum' =>
      cases UInt32.toNat_inj.mp (sum.trans sum'.symm)
      exact ⟨rfl, rfl⟩
    | fetchRefused refused => cases accepted.symm.trans refused
  | fetchRefused refused =>
    cases hh with
    | fetch accepted => cases accepted.symm.trans refused
    | fetchRefused refused' =>
      cases refused.symm.trans refused'
      exact ⟨rfl, rfl⟩

theorem Run.unique {m : MemoryMap} {f g h : FlatMemory} {operations : List Operation}
    {answers answers' : List (Except AddressError Outcome)} (hg : Run m f operations answers g)
    (hh : Run m f operations answers' h) : answers = answers' ∧ g = h := by
  induction hg generalizing answers' with
  | nil =>
    cases hh
    exact ⟨rfl, rfl⟩
  | cons first _ ih =>
    cases hh with
    | cons first' rest' =>
      obtain ⟨rfl, rfl⟩ := first.unique first'
      obtain ⟨rfl, rfl⟩ := ih rest'
      exact ⟨rfl, rfl⟩

end FlatMemory

namespace Memory

/-! ## Numbers as bytes -/

/-- A byte is eight bits of the number, whatever bits are above. -/
theorem toNat_getElem_lowBytes {count i : Nat} (value : UInt64) (hcount : count ≤ 8)
    (hi : i < (lowBytes count value).length) :
    (lowBytes count value)[i].toNat = value.toNat / 256 ^ i % 256 := by
  rw [length_lowBytes] at hi
  have hshift : (UInt64.ofNat (8 * i)).toNat % 64 = 8 * i := by
    rw [UInt64.toNat_ofNat_of_lt' (by simp only [UInt64.size]; omega)]
    omega
  have hpow : 2 ^ (8 * i) = 256 ^ i := Nat.pow_mul 2 8 i
  simp only [lowBytes, List.getElem_map, List.getElem_range, UInt64.toNat_toUInt8,
    UInt64.toNat_shiftRight, hshift, Nat.shiftRight_eq_div_pow, hpow]

theorem littleEndian_map_range (byteAt : Nat → UInt8) (count : Nat) :
    littleEndian ((List.range count).map byteAt) =
      ∑ i ∈ Finset.range count, (byteAt i).toNat * 256 ^ i := by
  induction count generalizing byteAt with
  | zero => rfl
  | succ count ih =>
    have hshift : ∑ i ∈ Finset.range count, (byteAt (i + 1)).toNat * 256 ^ (i + 1) =
        256 * ∑ i ∈ Finset.range count, (byteAt (i + 1)).toNat * 256 ^ i := by
      rw [Finset.mul_sum]
      exact Finset.sum_congr rfl fun i _ => by ring
    rw [List.range_succ_eq_map, List.map_cons, List.map_map, littleEndian, Finset.sum_range_succ',
      hshift]
    simp only [Function.comp_def, ih, pow_zero, mul_one]
    exact Nat.add_comm _ _

/-- The bytes of an item make no more than they have room for. -/
theorem flat_value_lt (f : FlatMemory) (address : UInt32) (width : Width) :
    f.value address width < 256 ^ width.bytes := by
  have hlt := littleEndian_lt ((List.range width.bytes).map fun i => f (address + UInt32.ofNat i))
  rwa [List.length_map, List.length_range, littleEndian_map_range, Nat.one_shiftLeft,
    Nat.pow_mul] at hlt

/-- 64 bits hold the bytes of every item. -/
theorem toNat_peek (mem : Memory) (address : UInt32) (width : Width) :
    (mem.peek address width).toNat = FlatMemory.value mem.byte address width := by
  have hlt := flat_value_lt mem.byte address width
  have hmax : 256 ^ width.bytes ≤ UInt64.size := Nat.pow_le_pow_right (by decide) width.bytes_le
  rw [peek, bytesFrom, littleEndian_map_range]
  exact UInt64.toNat_ofNat_of_lt' (Nat.lt_of_lt_of_le hlt hmax)

/-- And 32 bits those of a word. -/
theorem toNat_toUInt32_peek (mem : Memory) (address : UInt32) :
    (mem.peek address .word).toUInt32.toNat = FlatMemory.value mem.byte address .word := by
  rw [UInt64.toNat_toUInt32, toNat_peek]
  exact Nat.mod_eq_of_lt (flat_value_lt mem.byte address .word)

/-! ## Images -/

theorem add_ofNat_eq_iff {base x : UInt32} {j : Nat} :
    base + UInt32.ofNat j = x ↔ (base.toNat + j) % UInt32.size = x.toNat := by
  rw [← UInt32.toNat_inj, UInt32.toNat_add, UInt32.toNat_ofNat', Nat.add_mod_mod]

theorem place_append (mem : Memory) (address : UInt32) (xs ys : List UInt8) :
    mem.place address (xs ++ ys) =
      (mem.place address xs).place (address + UInt32.ofNat xs.length) ys := by
  induction xs generalizing mem address with
  | nil => simp [place]
  | cons x xs ih =>
    simp only [List.cons_append, place, ih, List.length_cons, UInt32.add_assoc]
    congr 2
    simp [UInt32.ofNat_add, UInt32.add_comm]

/-- Bytes are placed in turn, so that the last one at an address stays. -/
theorem imaged_place (mem : Memory) (base : UInt32) (bytes : List UInt8) :
    FlatMemory.Imaged mem.byte base bytes (mem.place base bytes).byte where
  set x j hj hat hlast := by
    rw [← add_ofNat_eq_iff] at hat
    have hsplit : bytes = bytes.take j ++ bytes[j] :: bytes.drop (j + 1) := by simp
    have hlength : (bytes.take j).length = j := by simp; omega
    conv_lhs => rw [hsplit, place_append, hlength, place]
    rw [byte_place_of_forall_ne, byte_setByte, if_pos hat]
    intro i hi he
    refine hlast (j + 1 + i) (by omega) (by simp at hi; omega) ?_
    rw [← add_ofNat_eq_iff, ← he]
    simp [UInt32.ofNat_add, UInt32.add_assoc]
  kept x hx := byte_place_of_forall_ne mem base x bytes fun j hj he =>
    hx j hj (add_ofNat_eq_iff.mp he)

/-! ## Accepted accesses -/

theorem unwrapped_of_isAligned {address : UInt32} {width : Width}
    (h : width.IsAligned address.toNat) : FlatMemory.Unwrapped address width := by
  intro i hi
  rw [← h.toNat_add hi]
  exact UInt32.toNat_lt_size _

/-- The bytes of an aligned item have addresses of their own, so that each keeps what is placed
there. -/
theorem stored_place (mem : Memory) {address : UInt32} {width : Width}
    (h : width.IsAligned address.toNat) (value : UInt64) :
    FlatMemory.Stored mem.byte address width value
      (mem.place address (lowBytes width.bytes value)).byte where
  set i hi := by
    have hlength := length_lowBytes width.bytes value
    have hlast : ∀ k, i < k → k < (lowBytes width.bytes value).length →
        (address.toNat + k) % UInt32.size ≠ (address + UInt32.ofNat i).toNat := by
      intro k hik hk
      rw [hlength] at hk
      rw [h.toNat_add hi, Nat.mod_eq_of_lt (unwrapped_of_isAligned h k hk)]
      omega
    rw [(imaged_place mem address _).set _ i (by rw [hlength]; exact hi)
      (add_ofNat_eq_iff.mp rfl) hlast, toNat_getElem_lowBytes value width.bytes_le]
  kept x hx := byte_place_of_forall_ne mem address x _ (by rw [length_lowBytes]; exact hx)

/-! ## Steps -/

theorem step_flat (mem : Memory) (operation : Operation) :
    FlatMemory.Step mem.map mem.byte operation (mem.step operation).1
      (mem.step operation).2.byte := by
  cases operation with
  | store address width value =>
    cases h : mem.map.validate address .store width with
    | error e =>
      have hstep : mem.step (.store address width value) = (.error e, mem) := by
        simp [step, perform, store, h, Except.map]
      rw [hstep]
      exact .storeRefused value h
    | ok result =>
      obtain ⟨rfl, haligned, -⟩ := checkAccess_eq_ok_iff.mp h
      have hstep : mem.step (.store result width value) =
          (.ok .done, mem.place result (lowBytes width.bytes value)) := by
        simp [step, perform, store, h, Except.map]
      rw [hstep]
      exact .store h (unwrapped_of_isAligned haligned) (mem.stored_place haligned value)
  | image base bytes => exact .image (mem.imaged_place base bytes)
  | load address width =>
    cases h : mem.map.validate address .load width with
    | error e =>
      have hstep : mem.step (.load address width) = (.error e, mem) := by
        simp [step, perform, load, h, Except.map]
      rw [hstep]
      exact .loadRefused h
    | ok result =>
      obtain ⟨rfl, haligned, -⟩ := checkAccess_eq_ok_iff.mp h
      have hstep : mem.step (.load result width) =
          (.ok (.contents (mem.peek result width)), mem) := by
        simp [step, perform, load, h, Except.map]
      rw [hstep]
      exact .load h (unwrapped_of_isAligned haligned) (mem.toNat_peek result width)
  | fetch address =>
    cases h : mem.map.validateFetch address with
    | error e =>
      have hstep : mem.step (.fetch address) = (.error e, mem) := by
        simp [step, perform, fetch, h, Except.map]
      rw [hstep]
      exact .fetchRefused h
    | ok result =>
      obtain ⟨rfl, haligned, -⟩ := checkAccess_eq_ok_iff.mp h
      have hstep : mem.step (.fetch result) =
          (.ok (.instruction (mem.peek result .word).toUInt32), mem) := by
        simp [step, perform, fetch, h, Except.map]
      rw [hstep]
      exact .fetch h (MemoryMap.validate_load_of_validateFetch h)
        (unwrapped_of_isAligned haligned) (mem.toNat_toUInt32_peek result)

theorem map_step (mem : Memory) (operation : Operation) :
    (mem.step operation).2.map = mem.map := by
  unfold step
  split
  · rename_i h
    cases operation with
    | store address width value =>
      obtain ⟨mem', hstore, he⟩ := map_eq_ok_iff.mp h
      cases he
      obtain ⟨-, rfl⟩ := store_eq_ok_iff.mp hstore
      exact map_place ..
    | image base bytes =>
      cases h
      exact map_place ..
    | load address width =>
      obtain ⟨_, -, he⟩ := map_eq_ok_iff.mp h
      cases he
      rfl
    | fetch address =>
      obtain ⟨_, -, he⟩ := map_eq_ok_iff.mp h
      cases he
      rfl
  · rfl

/-! ## Runs -/

theorem run_flat (mem : Memory) (operations : List Operation) :
    FlatMemory.Run mem.map mem.byte operations (mem.run operations).1
      (mem.run operations).2.byte := by
  induction operations generalizing mem with
  | nil => exact .nil _
  | cons operation operations ih =>
    have hrest := ih (mem.step operation).2
    rw [map_step] at hrest
    exact .cons (mem.step_flat operation) hrest

/-- From cleared memory on the flat array can give these answers and end with these bytes exactly if
memory gives and ends with them. -/
theorem flat_run_iff (m : MemoryMap) (operations : List Operation)
    (answers : List (Except AddressError Outcome)) (f : FlatMemory) :
    FlatMemory.Run m FlatMemory.blank operations answers f ↔
      ((fresh m).run operations).1 = answers ∧ ((fresh m).run operations).2.byte = f := by
  have hfresh : (fresh m).byte = FlatMemory.blank := funext (byte_fresh m)
  have hrun := run_flat (fresh m) operations
  rw [hfresh] at hrun
  constructor
  · exact fun h => hrun.unique h
  · rintro ⟨rfl, rfl⟩
    exact hrun

end Memory

end MipsMemory
