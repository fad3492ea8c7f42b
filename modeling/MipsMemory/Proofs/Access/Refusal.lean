import MipsMemory.Access

/-!
Why accesses are refused. Main statement: an access is refused exactly if it has a fault, and the
refusal names the access and the fault.
-/

namespace MipsMemory

/-- What is refused is refused for its alignment, whatever the spans, or else for its range. -/
theorem checkAccess_eq_error_iff {spans : List Span} {address : UInt32} {kind : AccessKind}
    {width : Width} {e : AddressError} :
    checkAccess spans address kind width = .error e ↔
      (¬ width.IsAligned address.toNat ∧ e = ⟨address, kind, .unaligned width⟩) ∨
        (width.IsAligned address.toNat ∧ (∀ span ∈ spans, ¬ span.Contains address) ∧
          e = ⟨address, kind, .outOfRange⟩) := by
  unfold checkAccess
  constructor
  · intro h
    split at h
    · rename_i hn
      cases h
      exact .inl ⟨hn, rfl⟩
    · rename_i ha
      split at h
      · cases h
      · rename_i hout
        cases h
        exact .inr ⟨Decidable.not_not.mp ha, fun span hspan hc => hout ⟨span, hspan, hc⟩, rfl⟩
  · rintro (⟨hn, rfl⟩ | ⟨ha, hout, rfl⟩)
    · rw [if_pos hn]
    · rw [if_neg (not_not_intro ha), if_neg]
      rintro ⟨span, hspan, hc⟩
      exact hout span hspan hc

namespace MemoryMap

variable {m : MemoryMap} {address : UInt32} {kind : AccessKind} {width : Width}

/-- What is wrong with an access: its alignment, whatever its range, or otherwise its range. -/
inductive FaultAt (m : MemoryMap) (address : UInt32) (kind : AccessKind) (width : Width) :
    Fault → Prop
  | unaligned (unaligned : ¬ width.IsAligned address.toNat) :
    FaultAt m address kind width (.unaligned width)
  | outOfRange (aligned : width.IsAligned address.toNat)
    (outside : ∀ span ∈ m.accessSpans kind, ¬ span.Contains address) :
    FaultAt m address kind width .outOfRange

theorem validate_eq_error_iff {e : AddressError} :
    m.validate address kind width = .error e ↔
      ∃ fault, m.FaultAt address kind width fault ∧ e = ⟨address, kind, fault⟩ := by
  rw [validate, checkAccess_eq_error_iff]
  constructor
  · rintro (⟨hn, rfl⟩ | ⟨ha, hout, rfl⟩)
    · exact ⟨_, .unaligned hn, rfl⟩
    · exact ⟨_, .outOfRange ha hout, rfl⟩
  · rintro ⟨_, hfault, rfl⟩
    cases hfault with
    | unaligned hn => exact .inl ⟨hn, rfl⟩
    | outOfRange ha hout => exact .inr ⟨ha, hout, rfl⟩

end MemoryMap

end MipsMemory
