/-!
The four segments an assembler allocates into, and one value of a kind for each of them. Main
statements: a value set for one segment is read back there, and nowhere else.
-/

namespace MipsMemory

/-- A part of memory that directives select and fill, for user or kernel mode. -/
inductive Segment where
  | text
  | data
  | kernelText
  | kernelData
  deriving DecidableEq, Repr

namespace Segment

/-- The segments in the conventional order. -/
def all : List Segment := [text, data, kernelText, kernelData]

/-- The name shown to a user. -/
def name : Segment → String
  | text => "text"
  | data => "data"
  | kernelText => "ktext"
  | kernelData => "kdata"

/-- The segment of a name shown to a user. -/
def ofName? : String → Option Segment
  | "text" => some text
  | "data" => some data
  | "ktext" => some kernelText
  | "kdata" => some kernelData
  | _ => none

/-- The place in the conventional order. -/
def index : Segment → Nat
  | text => 0
  | data => 1
  | kernelText => 2
  | kernelData => 3

/-- Holds instructions, in user or kernel mode. -/
def isText : Segment → Bool
  | text | kernelText => true
  | data | kernelData => false

@[simp] theorem ofName?_name (s : Segment) : ofName? s.name = some s := by
  cases s <;> rfl

theorem mem_all (s : Segment) : s ∈ all := by
  cases s <;> simp [all]

end Segment

/-- One value for each segment. -/
structure PerSegment (α : Type) where
  text : α
  data : α
  kernelText : α
  kernelData : α
  deriving DecidableEq

namespace PerSegment

variable {α : Type}

/-- The values that a function gives. -/
def ofFn (f : Segment → α) : PerSegment α :=
  ⟨f .text, f .data, f .kernelText, f .kernelData⟩

/-- The value for a segment. -/
def get (p : PerSegment α) : Segment → α
  | .text => p.text
  | .data => p.data
  | .kernelText => p.kernelText
  | .kernelData => p.kernelData

/-- Puts another value in the place of a segment's. -/
def set (p : PerSegment α) (s : Segment) (a : α) : PerSegment α :=
  match s with
  | .text => { p with text := a }
  | .data => { p with data := a }
  | .kernelText => { p with kernelText := a }
  | .kernelData => { p with kernelData := a }

@[simp] theorem get_ofFn (f : Segment → α) (s : Segment) : (ofFn f).get s = f s := by
  cases s <;> rfl

@[simp] theorem get_set_self (p : PerSegment α) (s : Segment) (a : α) : (p.set s a).get s = a := by
  cases s <;> rfl

theorem get_set_of_ne (p : PerSegment α) {s t : Segment} (a : α) (h : t ≠ s) :
    (p.set s a).get t = p.get t := by
  cases s <;> cases t <;> first | rfl | exact absurd rfl h

@[simp] theorem set_get (p : PerSegment α) (s : Segment) : p.set s (p.get s) = p := by
  cases s <;> rfl

end PerSegment

end MipsMemory
