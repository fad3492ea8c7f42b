import Mathlib.Data.List.Forall2
import MipsMemory.ConfigFile

/-!
What configuration files take from a library that writes and parses them. Each setting of a map is
written on a line of its own, as its key, a colon and a scalar, and lines of scalars are parsed as
the map whose settings they stand for. Main statement: if the scalars that are written stand for
their settings, the file of a map is read as that map, or refused as the map itself would be,
whatever the library's scalars look like.
-/

namespace MipsMemory.ConfigFile

/-- A value under a key of a configuration file. -/
inductive Setting where
  | text (s : String)
  | address (a : UInt32)
  | flag (b : Bool)

/-- The settings of a map under their keys, in the order they are written. -/
def settings (m : MemoryMap) : List (String × Setting) :=
  (MemoryMap.nameKey, .text m.name) ::
    (MemoryMap.fields.map (fun f => (f.key, .address (f.get m))) ++
      [(MemoryMap.selfModifyingKey, .flag m.selfModifying)])

/-- A key with a scalar, on a line of their own. -/
def line (entry : String × List Char) : List Char :=
  entry.1.toList ++ ':' :: ' ' :: entry.2 ++ ['\n']

/-- The text of such lines. -/
def ofLines (entries : List (String × List Char)) : String :=
  String.ofList (entries.flatMap line)

/-- A writer and a parser of configuration files that go together. -/
structure Library where
  print : MemoryMap → String
  parse? : String → Option MemoryMap
  /-- The scalar that a setting is written as, with the quotes it needs. -/
  scalar : Setting → List Char
  /-- The settings whose scalars fit on a line. -/
  Legible : Setting → Prop
  /-- A scalar is read as a setting where one of its kind is asked for. -/
  StandsFor : List Char → Setting → Prop
  print_eq {m : MemoryMap} : (∀ entry ∈ settings m, Legible entry.2) →
    print m = ofLines ((settings m).map fun entry => (entry.1, scalar entry.2))
  standsFor_scalar {v : Setting} : Legible v → StandsFor (scalar v) v
  parse?_ofLines {m : MemoryMap} {entries : List (String × List Char)} :
    List.Forall₂ (fun written entry => written.1 = entry.1 ∧ StandsFor written.2 entry.2)
      entries (settings m) → parse? (ofLines entries) = some m

theorem check_eq_error {m : MemoryMap} {e : Error} (h : m.check = .error e) :
    ∃ defect, e = .configInvalid defect := by
  unfold MemoryMap.check at h
  split at h
  · exact absurd h (by simp)
  · rename_i defect _
    exact ⟨defect, (Except.error.inj h).symm⟩

namespace Library

variable (L : Library) {m : MemoryMap}

/-- What is printed is parsed back. -/
theorem parse?_print (h : ∀ entry ∈ settings m, L.Legible entry.2) :
    L.parse? (L.print m) = some m := by
  rw [L.print_eq h]
  apply L.parse?_ofLines
  generalize settings m = entries at h
  induction entries with
  | nil => exact .nil
  | cons entry entries ih =>
    obtain ⟨hentry, hentries⟩ := List.forall_mem_cons.mp h
    exact .cons ⟨rfl, L.standsFor_scalar hentry⟩ (ih hentries)

theorem readWith_print (h : ∀ entry ∈ settings m, L.Legible entry.2) :
    readWith L.parse? (L.print m) = m.check.map fun _ => m := by
  rw [readWith, L.parse?_print h]

/-- The file of a map is read as that map, or refused as the map itself would be, and the file is
never at fault. -/
theorem readWith_print_cases (h : ∀ entry ∈ settings m, L.Legible entry.2) :
    (m.check = .ok () → readWith L.parse? (L.print m) = .ok m) ∧
      (∀ e, m.check = .error e →
        readWith L.parse? (L.print m) = .error e ∧ ∃ defect, e = .configInvalid defect) ∧
      readWith L.parse? (L.print m) ≠ .error .configParse := by
  rw [L.readWith_print h]
  refine ⟨fun hcheck => by rw [hcheck]; rfl,
    fun e hcheck => ⟨by rw [hcheck]; rfl, check_eq_error hcheck⟩, fun hparse => ?_⟩
  cases hcheck : m.check with
  | ok => simp [hcheck, Except.map] at hparse
  | error e =>
    obtain ⟨defect, rfl⟩ := check_eq_error hcheck
    simp [hcheck, Except.map] at hparse

end Library

end MipsMemory.ConfigFile
