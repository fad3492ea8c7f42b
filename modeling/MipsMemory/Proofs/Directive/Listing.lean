import MipsMemory.CommandLine
import MipsMemory.Proofs.Directive.Spellings

/-!
Listing directives by what was typed so far. Main statement: for each beginning of a text that is
found when it is looked up, the program lists the directives whose token begins with as much of the
token found.
-/

namespace MipsMemory

open Text (FoldsTo)

namespace CommandLine

theorem Arguments.parse?_operand {arg : String} (h : looksLikeOption arg = false) :
    parse? [] [arg] = some ⟨[], [arg]⟩ := by
  have hdashes : arg ≠ "--" := by
    rintro rfl
    exact absurd h (by decide)
  have hsort : sort? [] [arg] = some ⟨[], [arg]⟩ := by
    unfold sort?
    rw [if_neg hdashes, if_neg (by simp [h])]
    rfl
  rw [parse?, hsort]
  rfl

/-- The program shows the directives that are suggested for its operand, if there are any. -/
theorem run_directives {typed : String} (files : Files)
    (hoperand : Arguments.looksLikeOption typed = false) (hfound : Directive.suggestions typed ≠ []) :
    run "mips-asm" files ["directives", typed] =
      ⟨0, lines ((Directive.suggestions typed).map Assembler.directiveLine)⟩ := by
  have hparse : Command.parse? "mips-asm" ["directives", typed] =
      some (.directives (some typed)) := by
    simp [Command.parse?, Command.directives?, Arguments.parse?_operand hoperand]
  rw [run, hparse]
  simp only [Command.run, Assembler.directives]

end CommandLine

namespace Directive

variable {d : Directive} {text typed : String}

/-! ## Beginnings of a spelling -/

/-- A beginning of a spelling spells as much of the token. -/
theorem SpelledBy.take (h : d.SpelledBy text) (hbegins : typed.toList <+: text.toList) :
    List.Forall₂ FoldsTo typed.toList (d.token.toList.take typed.length) := by
  rw [List.prefix_iff_eq_take.mp hbegins, String.length_toList]
  exact List.forall₂_take _ h

theorem SpelledBy.lowercase_eq (hd : d ∈ catalogue) (h : d.SpelledBy text)
    (hbegins : typed.toList <+: text.toList) :
    Text.lowercase typed = String.ofList (d.token.toList.take typed.length) := by
  rw [Text.lowercase_eq_iff, String.toList_ofList]
  · exact h.take hbegins
  · intro t ht
    rw [String.toList_ofList] at ht
    exact isSmall_of_mem_token hd (List.mem_of_mem_take ht)

theorem SpelledBy.suggestions_eq (hd : d ∈ catalogue) (h : d.SpelledBy text)
    (hbegins : typed.toList <+: text.toList) :
    suggestions typed =
      catalogue.filter (d.token.toList.take typed.length <+: ·.token.toList) := by
  rw [suggestions, startingWith, h.lowercase_eq hd hbegins, String.toList_ofList]
  simp only [← List.isPrefixOf_iff_prefix, Bool.decide_eq_true]

theorem head?_token (hd : d ∈ catalogue) : d.token.toList.head? = some '.' := by
  have hall : ∀ d ∈ catalogue, d.token.toList.head? = some '.' := by decide +kernel
  exact hall d hd

/-- A spelling begins with a point, so no beginning of it is taken for an option. -/
theorem SpelledBy.looksLikeOption_eq_false (hd : d ∈ catalogue) (h : d.SpelledBy text)
    (hbegins : typed.toList <+: text.toList) :
    CommandLine.Arguments.looksLikeOption typed = false := by
  obtain ⟨rest, hrest⟩ := List.head?_eq_some_iff.mp (head?_token hd)
  have hspelled : List.Forall₂ FoldsTo text.toList ('.' :: rest) := hrest ▸ h
  unfold CommandLine.Arguments.looksLikeOption
  split
  · -- a dash in front of the operand would be one in front of the spelling
    rename_i c cs hdash
    rw [hdash] at hbegins
    obtain ⟨more, hmore⟩ := hbegins
    rw [← hmore] at hspelled
    cases hspelled with
    | cons hpoint _ => exact absurd hpoint (by decide)
  · rfl

/-- Looking a text up finds the directive whose token it spells, of which there is at most one, and
refuses every other text as it stands. For each beginning of a text that is found, the directives
listed are those whose token begins with as much of the token found, in the order of the catalogue;
the one found is among them. -/
theorem lookup_agrees_with_listing (text : String) :
    (∀ d, lookup text = .ok d ↔ d ∈ catalogue ∧ d.SpelledBy text) ∧
    {d | d ∈ catalogue ∧ d.SpelledBy text}.Subsingleton ∧
    (∀ error, lookup text = .error error ↔
      (∀ d ∈ catalogue, ¬ d.SpelledBy text) ∧ error = .directiveNotFound text) ∧
    ∀ d, lookup text = .ok d → ∀ typed : String, typed.toList <+: text.toList →
      let listed := catalogue.filter (d.token.toList.take typed.length <+: ·.token.toList)
      suggestions typed = listed ∧ d ∈ listed ∧
        ∀ files, CommandLine.run "mips-asm" files ["directives", typed] =
          ⟨0, CommandLine.lines (listed.map CommandLine.Assembler.directiveLine)⟩ := by
  refine ⟨fun d => lookup_eq_ok_iff, subsingleton_spelledBy text,
    fun error => lookup_eq_error_iff, ?_⟩
  intro d hfound typed hbegins listed
  obtain ⟨hd, h⟩ := lookup_eq_ok_iff.mp hfound
  have hlisted : suggestions typed = listed := h.suggestions_eq hd hbegins
  have hmem : d ∈ listed := List.mem_filter.mpr ⟨hd, by simpa using List.take_prefix _ _⟩
  refine ⟨hlisted, hmem, fun files => ?_⟩
  rw [← hlisted]
  apply CommandLine.run_directives files (h.looksLikeOption_eq_false hd hbegins)
  rw [hlisted]
  exact List.ne_nil_of_mem hmem

/-- A Kelvin sign among capitals finds kernel data; what is listed for it alone is both kernel
segments. -/
theorem lookup_agrees_with_listing_kelvin :
    let kdata : Directive := ⟨".kdata", .select .kernelData,
      "Subsequent items stored in Kernel Data segment at next available address"⟩
    lookup ".\u212aDATA" = .ok kdata ∧ kdata.SpelledBy ".\u212aDATA" ∧
      (suggestions ".\u212a").map token = [".kdata", ".ktext"] ∧ kdata ∈ suggestions ".\u212a" ∧
      ∀ files, (CommandLine.run "mips-asm" files ["directives", ".\u212a"]).exit = 0 := by
  intro kdata
  obtain ⟨hok, -, -, hlisting⟩ := lookup_agrees_with_listing ".\u212aDATA"
  have hspelled : kdata.SpelledBy ".\u212aDATA" := by decide
  have hfound : lookup ".\u212aDATA" = .ok kdata := (hok kdata).mpr ⟨by decide, hspelled⟩
  obtain ⟨hlisted, hmem, hrun⟩ := hlisting kdata hfound ".\u212a" (by decide)
  refine ⟨hfound, hspelled, ?_, hlisted ▸ hmem, fun files => by rw [hrun files]⟩
  rw [hlisted]
  decide

end Directive

end MipsMemory
