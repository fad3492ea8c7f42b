import Mathlib.Data.List.Forall2
import Mathlib.Data.List.Nodup
import Mathlib.Data.Set.Subsingleton
import MipsMemory.Directive
import MipsMemory.Proofs.Text.LowerCase

/-!
How directives may be spelled. Lower case is taken of a text before it is looked up, for all of
Unicode. Main statement: looking a text up finds exactly the directive whose token it spells, and no
text spells two of them.
-/

namespace MipsMemory

open Text (FoldsTo IsSmall)

namespace Directive

variable {d e : Directive} {text word : String}

/-- The text is the directive's token character by character, where an ASCII capital may stand for
its small letter and the Kelvin sign for `k`. -/
def SpelledBy (d : Directive) (text : String) : Prop :=
  List.Forall₂ FoldsTo text.toList d.token.toList

instance (d : Directive) (text : String) : Decidable (d.SpelledBy text) :=
  inferInstanceAs (Decidable (List.Forall₂ FoldsTo text.toList d.token.toList))

/-! ## Tokens -/

theorem isSmall_of_mem_token (hd : d ∈ catalogue) {t : Char} (ht : t ∈ d.token.toList) :
    IsSmall t := by
  have hall : ∀ d ∈ catalogue, d.token.toList.all (decide <| IsSmall ·) = true := by
    decide +kernel
  exact of_decide_eq_true (List.all_eq_true.mp (hall d hd) t ht)

theorem eq_of_token_eq (hd : d ∈ catalogue) (he : e ∈ catalogue) (h : d.token = e.token) :
    d = e := by
  have hnodup : (catalogue.map token).Nodup := by decide +kernel
  exact List.inj_on_of_nodup_map hnodup hd he h

theorem find?_token_eq_some_iff :
    catalogue.find? (·.token = word) = some d ↔ d ∈ catalogue ∧ word = d.token := by
  constructor
  · intro h
    have htoken := List.find?_some h
    exact ⟨List.mem_of_find?_eq_some h, by simpa [eq_comm] using htoken⟩
  · rintro ⟨hd, rfl⟩
    cases hfind : catalogue.find? (·.token = d.token) with
    | none => simpa using List.find?_eq_none.mp hfind d hd
    | some e =>
      have htoken : e.token = d.token := by simpa using List.find?_some hfind
      rw [eq_of_token_eq (List.mem_of_find?_eq_some hfind) hd htoken]

/-! ## Looking up -/

theorem lowercase_eq_token_iff (hd : d ∈ catalogue) :
    Text.lowercase text = d.token ↔ d.SpelledBy text :=
  Text.lowercase_eq_iff fun _ ht => isSmall_of_mem_token hd ht

theorem find?_lowercase_eq_some_iff :
    catalogue.find? (·.token = Text.lowercase text) = some d ↔ d ∈ catalogue ∧ d.SpelledBy text := by
  rw [find?_token_eq_some_iff]
  exact and_congr_right lowercase_eq_token_iff

theorem lookup_eq_ok_iff : lookup text = .ok d ↔ d ∈ catalogue ∧ d.SpelledBy text := by
  rw [← find?_lowercase_eq_some_iff, lookup]
  cases catalogue.find? (·.token = Text.lowercase text) <;> simp

theorem mem_catalogue_of_lookup (h : lookup text = .ok d) : d ∈ catalogue :=
  (lookup_eq_ok_iff.mp h).1

/-- Each directive is found under its own token. -/
theorem lookup_token (h : d ∈ catalogue) : lookup d.token = .ok d :=
  lookup_eq_ok_iff.mpr ⟨h, List.forall₂_same.mpr fun _ _ => .inl rfl⟩

theorem lookup_eq_error_iff {error : Error} :
    lookup text = .error error ↔
      (∀ d ∈ catalogue, ¬ d.SpelledBy text) ∧ error = .directiveNotFound text := by
  rw [lookup]
  cases hfind : catalogue.find? (·.token = Text.lowercase text) with
  | none =>
    have hnone (d : Directive) (hd : d ∈ catalogue) : ¬ d.SpelledBy text := by
      intro hspelled
      have := find?_lowercase_eq_some_iff.mpr ⟨hd, hspelled⟩
      rw [hfind] at this
      cases this
    rw [Except.error.injEq, eq_comm, and_iff_right hnone]
  | some d =>
    obtain ⟨hd, hspelled⟩ := find?_lowercase_eq_some_iff.mp hfind
    exact iff_of_false nofun fun h => h.1 d hd hspelled

theorem subsingleton_spelledBy (text : String) :
    {d | d ∈ catalogue ∧ d.SpelledBy text}.Subsingleton := by
  intro d hd e he
  exact Except.ok.inj ((lookup_eq_ok_iff.mpr hd).symm.trans (lookup_eq_ok_iff.mpr he))

end Directive

end MipsMemory
