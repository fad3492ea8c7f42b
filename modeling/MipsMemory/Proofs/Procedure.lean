import MipsMemory.Proofs.Except

/-!
Procedures read and assign a state, one step after another, and keep what they have assigned when
they fail. Main statement: a check that comes before all assignments fails on the state it found.
-/

namespace MipsMemory

/-- Steps that read and assign a state and may fail; what was assigned before a failure stays. -/
abbrev Procedure (σ ε α : Type) : Type := ExceptT ε (StateM σ) α

namespace Procedure

variable {σ ε α β : Type}

/-- The answer and the state as the procedure leaves it, be it by a failure. -/
def exec (p : Procedure σ ε α) (s : σ) : Except ε α × σ := ExceptT.run p s

/-- An answer that depends on the state and leaves it. -/
def ask (f : σ → Except ε α) : Procedure σ ε α := do
  let s ← get
  ofExcept (f s)

/-- The answer and the next state of a function, or the state it started from where it fails. -/
def settle (s : σ) : Except ε (α × σ) → Except ε α × σ
  | .ok (x, s') => (.ok x, s')
  | .error e => (.error e, s)

@[simp] theorem exec_pure (x : α) (s : σ) : exec (pure x : Procedure σ ε α) s = (.ok x, s) := rfl

@[simp] theorem exec_ofExcept (x : Except ε α) (s : σ) :
    exec (ofExcept x : Procedure σ ε α) s = (x, s) := by
  cases x <;> rfl

@[simp] theorem exec_get (s : σ) : exec (get : Procedure σ ε σ) s = (.ok s, s) := rfl

@[simp] theorem exec_modify (f : σ → σ) (s : σ) :
    exec (modify f : Procedure σ ε PUnit) s = (.ok ⟨⟩, f s) := rfl

@[simp] theorem exec_bind (p : Procedure σ ε α) (next : α → Procedure σ ε β) (s : σ) :
    exec (p >>= next) s = match exec p s with
      | (.ok x, s') => exec (next x) s'
      | (.error e, s') => (.error e, s') := by
  have hbind : exec (p >>= next) s =
      match exec p s with | (answer, s') => ExceptT.bindCont next answer s' := rfl
  rw [hbind]
  rcases exec p s with ⟨_ | _, _⟩ <;> rfl

@[simp] theorem exec_ask (f : σ → Except ε α) (s : σ) : exec (ask f) s = (f s, s) := by
  simp [ask]

/-- A look at the state that comes first fails on that state. -/
theorem exec_ask_bind {check : σ → Except ε α} {next : α → Procedure σ ε β} {s : σ}
    {result : α → Except ε (β × σ)} (h : ∀ x, exec (next x) s = settle s (result x)) :
    exec (ask check >>= next) s = settle s (check s >>= result) := by
  rw [exec_bind, exec_ask]
  cases check s with
  | error e => rfl
  | ok x => exact h x

/-- A check that comes first fails on the same state. -/
theorem exec_ofExcept_bind {check : Except ε α} {next : α → Procedure σ ε β} {s : σ}
    {result : α → Except ε (β × σ)} (h : ∀ x, exec (next x) s = settle s (result x)) :
    exec (ofExcept check >>= next) s = settle s (check >>= result) := by
  rw [exec_bind, exec_ofExcept]
  cases check with
  | error e => rfl
  | ok x => exact h x

/-- Another answer makes no difference to what is left. -/
theorem exec_map {p : Procedure σ ε α} {s : σ} {result : Except ε (α × σ)}
    (h : exec p s = settle s result) (f : α → β) :
    exec (do let x ← p; return f x) s = settle s (result.map fun (x, s) => (f x, s)) := by
  rw [exec_bind, h]
  cases result <;> rfl

/-- A look at the state leaves it, whatever it shows. -/
theorem exec_ask_map (f : σ → Except ε α) (g : α → β) (s : σ) :
    exec (do let x ← ask f; return g x) s = settle s ((f s).map fun x => (g x, s)) := by
  rw [exec_bind, exec_ask]
  cases f s <;> rfl

end Procedure

end MipsMemory
