import Mathlib.Data.Nat.Basic
import MipsMemory.Proofs.ConfigFile.Library
import MipsMemory.Proofs.Numeral
import MipsMemory.Proofs.Yaml.Mapping

/-!
Configuration files read back. The project's own writer and parser go together: its scalars are
those of YAML, and a scalar stands for a setting if it reads as one that means it. Main statement:
whatever a map holds, and whatever printable ASCII its name is, reading the file written for it
gives that map if it passes the check, and otherwise the error of the check; the file itself is
never at fault.
-/

namespace MipsMemory

open Yaml

/-! ## Decimal numerals -/

namespace Numeral

theorem head?_toDigits_ne_zero {n : Nat} (h : 0 < n) : (Nat.toDigits 10 n).head? ≠ some '0' := by
  induction n using Nat.strongRecOn with
  | ind n ih =>
    by_cases hn : n < 10
    · have : ∀ n < 10, 0 < n → Nat.digitChar n ≠ '0' := by decide
      simp [Nat.toDigits_of_lt_base hn, this n hn h]
    · rw [Nat.toDigits_of_base_le (by decide) (Nat.not_lt.mp hn),
        List.head?_append_of_ne_nil _ Nat.toDigits_ne_nil]
      exact ih _ (by omega) (by omega)

end Numeral

namespace Yaml.Scalar

theorem hasLeadingZero_of_head? {cs : List Char} (hcs : ∀ c ∈ cs, c.isDigit = true)
    (h : cs.head? ≠ some '0') : hasLeadingZero cs = false := by
  unfold hasLeadingZero
  split
  · exact absurd (hcs '-' List.mem_cons_self) (by decide)
  · exact absurd (hcs '+' List.mem_cons_self) (by decide)
  · dsimp only
    split
    · exact absurd rfl h
    · rfl

/-- Digits without a sign or a marker of their base are decimal. -/
theorem natural?_of_isDigit {cs : List Char} (hcs : ∀ c ∈ cs, c.isDigit = true)
    (hzero : hasLeadingZero cs = false) : natural? cs = Numeral.digits? 10 cs := by
  unfold natural?
  split
  · exact absurd (hcs '+' List.mem_cons_self) (by decide)
  · unfold magnitude?
    split
    · exact absurd (hcs 'x' (by simp)) (by decide)
    · exact absurd (hcs 'o' (by simp)) (by decide)
    · exact absurd (hcs 'b' (by simp)) (by decide)
    · simp [hzero]

theorem natural?_toDigits (n : Nat) : natural? (Nat.toDigits 10 n) = some n := by
  have hdigit (c : Char) (hc : c ∈ Nat.toDigits 10 n) : c.isDigit = true :=
    Nat.isDigit_of_mem_toDigits (by decide) (by decide) hc
  have hzero : hasLeadingZero (Nat.toDigits 10 n) = false := by
    rcases Nat.eq_zero_or_pos n with rfl | hn
    · rfl
    · exact hasLeadingZero_of_head? hdigit (Numeral.head?_toDigits_ne_zero hn)
  rw [natural?_of_isDigit hdigit hzero]
  exact (Numeral.digits?_eq_some_iff (by decide)).mpr (Numeral.digits_toDigits (by decide) n)

end Yaml.Scalar

namespace ConfigFile

open Document

variable {m : MemoryMap}

/-! ## Scalars -/

/-- A scalar means a setting where one of its kind is asked for. -/
def Setting.MeantBy (s : Scalar) : Setting → Prop
  | .text t => s.text = t.toList
  | .address a => s.unsigned? UInt32.size = some a.toNat
  | .flag b => s.flag? = some b

/-- What is written reads, up to the end of its line, as a scalar that means the setting. -/
def StandsFor (written : List Char) (v : Setting) : Prop :=
  ∃ text style, Lexer.ReadsAs (written ++ ['\n']) text style ∧
    (∀ c ∈ written ++ ['\n'], isAllowed c = true) ∧ v.MeantBy ⟨text, style, none⟩

/-- Addresses and flags always fit on a line, texts if they have no breaks themselves. -/
def Legible : Setting → Prop
  | .text s => Written.IsLine s.toList
  | .address _ | .flag _ => True

/-- The end of the line is left out. -/
def scalar : Setting → List Char
  | .text s => (Written.value s.toList).dropLast
  | .address a => Nat.toDigits 10 a.toNat
  | .flag b => (if b then "true" else "false").toList

theorem standsFor_text {s : String} (h : Written.IsLine s.toList) :
    StandsFor (scalar (.text s)) (.text s) := by
  refine ⟨s.toList, Written.style s.toList, ?_, ?_, rfl⟩
  · rw [scalar, Written.dropLast_value h]
    exact Lexer.readsAs_value h
  · rw [scalar, Written.dropLast_value h]
    exact fun c => Written.isAllowed_value h

/-- A word that needs no quotes. -/
theorem standsFor_of_isName {text : List Char} (h : IsName text) {v : Setting}
    (hv : v.MeantBy ⟨text, .plain, none⟩) : StandsFor text v := by
  refine ⟨text, .plain, Lexer.readsAs_plain (.of_isName h), fun c hc => ?_, hv⟩
  rcases List.mem_append.mp hc with hc | hc
  · exact isAllowed_of_isPrintable (Written.isLine_of_isName h c hc).1
  · rw [List.mem_singleton.mp hc]
    rfl

theorem isName_toDigits (n : Nat) : IsName (Nat.toDigits 10 n) := by
  refine ⟨Nat.toDigits_ne_nil, fun c hc => ?_⟩
  have hdigit : '0' ≤ c ∧ c ≤ '9' :=
    Char.isDigit_iff_toNat.mp (Nat.isDigit_of_mem_toDigits (by decide) (by decide) hc)
  simp [isNameChar, hdigit]

theorem isName_flag (b : Bool) : IsName (if b then "true" else "false").toList := by
  cases b <;> exact ⟨by decide, List.all_eq_true.mp (by decide)⟩

theorem standsFor_scalar {v : Setting} (h : Legible v) : StandsFor (scalar v) v := by
  cases v with
  | text s => exact standsFor_text h
  | address a =>
    refine standsFor_of_isName (isName_toDigits a.toNat) ?_
    simp [Setting.MeantBy, Scalar.unsigned?, Scalar.isBare, Scalar.natural?_toDigits,
      a.toNat_lt_size]
  | flag b =>
    refine standsFor_of_isName (isName_flag b) ?_
    cases b <;> rfl

/-! ## Lines -/

theorem map_fst_settings (m : MemoryMap) : (settings m).map Prod.fst = MemoryMap.keys := by
  simp [settings, MemoryMap.keys, Function.comp_def]

theorem holds_key {key : String} (h : key ∈ MemoryMap.keys) :
    IsName key.toList ∧ byteCount key.toList ≤ 1024 := by
  have : ∀ key ∈ MemoryMap.keys, (key.toList ≠ [] ∧ key.toList.all isNameChar = true) ∧
      byteCount key.toList ≤ 1024 := by decide
  simpa [IsName] using this key h

/-- An entry of a mapping that holds a setting under its key. -/
def Sets (e : Lexer.Entry) (entry : String × Setting) : Prop :=
  e.key = entry.1.toList ∧ entry.2.MeantBy ⟨e.text, e.style, none⟩

/-- The line of a scalar that stands for a setting holds an entry that sets it. -/
theorem exists_entry {written : String × List Char} {entry : String × Setting}
    (hkey : entry.1 ∈ MemoryMap.keys) (h : written.1 = entry.1 ∧ StandsFor written.2 entry.2) :
    ∃ e : Lexer.Entry, e.Holds ∧ e.line = line written ∧ Sets e entry := by
  obtain ⟨hwritten, text, style, hreads, hallowed, hmeans⟩ := h
  obtain ⟨hname, hlength⟩ := holds_key hkey
  refine ⟨⟨entry.1.toList, written.2 ++ ['\n'], text, style⟩, ⟨hname, hlength, hreads, hallowed⟩,
    ?_, rfl, hmeans⟩
  simp [Lexer.Entry.line, line, hwritten]

theorem exists_entries {written : List (String × List Char)} {entries : List (String × Setting)}
    (hkeys : ∀ entry ∈ entries, entry.1 ∈ MemoryMap.keys)
    (h : List.Forall₂ (fun written entry => written.1 = entry.1 ∧ StandsFor written.2 entry.2)
      written entries) :
    ∃ es : List Lexer.Entry, (∀ e ∈ es, e.Holds) ∧
      es.flatMap Lexer.Entry.line = written.flatMap line ∧ List.Forall₂ Sets es entries := by
  induction h with
  | nil => exact ⟨[], List.forall_mem_nil _, rfl, .nil⟩
  | cons hentry _ ih =>
    obtain ⟨hkey, hkeys⟩ := List.forall_mem_cons.mp hkeys
    obtain ⟨e, hholds, hline, hsets⟩ := exists_entry hkey hentry
    obtain ⟨es, hall, hlines, hes⟩ := ih hkeys
    exact ⟨e :: es, List.forall_mem_cons.mpr ⟨hholds, hall⟩,
      by rw [List.flatMap_cons, List.flatMap_cons, hline, hlines], .cons hsets hes⟩

/-! ## The map in a file -/

/-- Among the fields every setting of a map is found under its key, once. -/
structure Found (fields : List (String × Node)) (m : MemoryMap) : Prop where
  nodup : (fields.map Prod.fst).Nodup
  setting : ∀ entry ∈ settings m, ∃ s, (entry.1, Node.scalar s) ∈ fields ∧ entry.2.MeantBy s

theorem keys_of_sets {es : List Lexer.Entry} {entries : List (String × Setting)}
    (h : List.Forall₂ Sets es entries) :
    (es.map field).map Prod.fst = entries.map Prod.fst := by
  induction h with
  | nil => rfl
  | cons hsets _ ih => simp [field, hsets.1, ih]

theorem exists_of_sets {es : List Lexer.Entry} {entries : List (String × Setting)}
    (h : List.Forall₂ Sets es entries) {entry : String × Setting} (hentry : entry ∈ entries) :
    ∃ s, (entry.1, Node.scalar s) ∈ es.map field ∧ entry.2.MeantBy s := by
  induction h with
  | nil => cases hentry
  | @cons e first _ _ hsets _ ih =>
    rcases List.mem_cons.mp hentry with rfl | hentry
    · exact ⟨⟨e.text, e.style, none⟩, by simp [field, Lexer.Entry.nodes, hsets.1], hsets.2⟩
    · obtain ⟨s, hs, hmeans⟩ := ih hentry
      exact ⟨s, List.mem_cons_of_mem _ hs, hmeans⟩

theorem found_of_sets {es : List Lexer.Entry} (h : List.Forall₂ Sets es (settings m)) :
    Found (es.map field) m where
  nodup := by
    rw [keys_of_sets h, map_fst_settings]
    exact MemoryMap.nodup_keys
  setting _ := exists_of_sets h

namespace Found

variable {fields : List (String × Node)} (h : Found fields m) (d : Document)

include h

theorem name : ∃ s, required fields MemoryMap.nameKey = pure (.scalar s) ∧
    s.text = m.name.toList := by
  obtain ⟨s, hs, hmeans⟩ := h.setting (MemoryMap.nameKey, .text m.name) List.mem_cons_self
  exact ⟨s, required_eq h.nodup hs, hmeans⟩

theorem address {f : MemoryMap.Field} (hf : f ∈ MemoryMap.fields) :
    ConfigFile.address d fields f.key = pure (f.get m) := by
  obtain ⟨s, hs, hmeans⟩ := h.setting (f.key, .address (f.get m))
    (List.mem_cons_of_mem _ (List.mem_append_left _ (List.mem_map_of_mem hf)))
  have hvalue : s.unsigned? UInt32.size = some (f.get m).toNat := hmeans
  rw [ConfigFile.address, required_eq h.nodup hs, pure_bind, d.scalar_of_eq_some hvalue, pure_bind,
    UInt32.ofNat_toNat]

theorem flag : ConfigFile.flag d fields = pure m.selfModifying := by
  obtain ⟨s, hs, hmeans⟩ := h.setting (MemoryMap.selfModifyingKey, .flag m.selfModifying)
    (List.mem_cons_of_mem _ (List.mem_append_right _ List.mem_cons_self))
  rw [ConfigFile.flag, optional_eq h.nodup hs, pure_bind]
  exact d.scalar_of_eq_some hmeans

theorem foldlM_address (fs : List MemoryMap.Field) (hfs : fs ⊆ MemoryMap.fields)
    (start : MemoryMap) :
    fs.foldlM (fun acc f => return f.set (← ConfigFile.address d fields f.key) acc) start =
      (pure (fs.foldl (fun acc f => f.set (f.get m) acc) start) : Reading MemoryMap) := by
  induction fs generalizing start with
  | nil => rfl
  | cons f fs ih =>
    obtain ⟨hf, hfs⟩ := List.cons_subset.mp hfs
    rw [List.foldlM_cons, h.address d hf, pure_bind, pure_bind, ih hfs]
    rfl

end Found

theorem memoryMap_of_sets {es : List Lexer.Entry} (h : List.Forall₂ Sets es (settings m))
    (d : Document) : memoryMap d (.mapping (es.map Lexer.Entry.nodes)) = pure m := by
  have hfound := found_of_sets h
  obtain ⟨s, hname, htext⟩ := hfound.name
  rw [memoryMap, fields_mapping, pure_bind, hname, pure_bind, text_scalar, pure_bind, htext,
    String.ofList_toList, hfound.flag d, pure_bind,
    hfound.foldlM_address d _ (List.Subset.refl _)]
  -- Every field of the map is set to what it is in the map.
  rfl

/-- Lines of scalars that stand for the settings of a map are parsed as that map. -/
theorem parse?_ofLines {written : List (String × List Char)}
    (h : List.Forall₂ (fun written entry => written.1 = entry.1 ∧ StandsFor written.2 entry.2)
      written (settings m)) : parse? (ofLines written) = some m := by
  have hkeys : ∀ entry ∈ settings m, entry.1 ∈ MemoryMap.keys := fun entry hentry =>
    map_fst_settings m ▸ List.mem_map_of_mem hentry
  obtain ⟨es, hholds, hlines, hsets⟩ := exists_entries hkeys h
  have hne : es ≠ [] := by
    rintro rfl
    cases hsets
  rw [parse?, ofLines, ← hlines, read?_entries hholds hne]
  simp only [decode?, memoryMap_of_sets hsets]
  rfl

/-! ## The writer -/

theorem print_eq (h : ∀ entry ∈ settings m, Legible entry.2) :
    write m = ofLines ((settings m).map fun entry => (entry.1, scalar entry.2)) := by
  have hname : Written.IsLine m.name.toList := h (MemoryMap.nameKey, .text m.name) List.mem_cons_self
  simp [write, write.plainLine, write.numberLine, Written.entry, ofLines, settings, line, scalar,
    List.flatMap_map, Written.dropLast_value hname]

/-- The project's own writer and parser. -/
def yaml : Library where
  print := write
  parse? := parse?
  scalar := scalar
  Legible := Legible
  StandsFor := StandsFor
  print_eq := print_eq
  standsFor_scalar := standsFor_scalar
  parse?_ofLines := parse?_ofLines

/-! ## Reading what was written -/

/-- Made of printable ASCII characters. -/
def IsAscii (name : String) : Prop := ∀ c ∈ name.toList, ' ' ≤ c ∧ c ≤ '~'

instance (name : String) : Decidable (IsAscii name) :=
  decidable_of_iff (name.toList.all fun c => ' ' ≤ c ∧ c ≤ '~') (by simp [IsAscii])

theorem legible_settings (h : IsAscii m.name) : ∀ entry ∈ settings m, Legible entry.2 := by
  refine List.forall_mem_cons.mpr ⟨Written.isLine_of_ascii h, fun entry hentry => ?_⟩
  rcases List.mem_append.mp hentry with hentry | hentry
  · obtain ⟨f, -, rfl⟩ := List.mem_map.mp hentry
    trivial
  · rw [List.mem_singleton.mp hentry]
    trivial

/-- The file of a map is read as that map, or refused as the map itself would be. -/
theorem read_write (m : MemoryMap) (hname : IsAscii m.name) :
    (m.check = .ok () → read (write m) = .ok m) ∧
      (∀ e, m.check = .error e →
        read (write m) = .error e ∧ ∃ defect, e = .configInvalid defect) ∧
      read (write m) ≠ .error .configParse :=
  yaml.readWith_print_cases (legible_settings hname)

/-- Names that would mean something else without quotes, one of them on a map with a defect. -/
theorem read_write_awkward :
    IsAscii " ~\x27null\x27: #\"0x1F\" " ∧
      { MemoryMap.standard with name := " ~\x27null\x27: #\"0x1F\" " }.check = .ok () ∧
      read (write { MemoryMap.standard with name := " ~\x27null\x27: #\"0x1F\" " }) =
        .ok { MemoryMap.standard with name := " ~\x27null\x27: #\"0x1F\" " } ∧
      IsAscii "0x10" ∧
      { MemoryMap.standard with name := "0x10", heapBase := 0 }.check =
        .error (.configInvalid (.heapBelowData 0 0x10010000)) ∧
      read (write { MemoryMap.standard with name := "0x10", heapBase := 0 }) =
        .error (.configInvalid (.heapBelowData 0 0x10010000)) := by
  have hname : IsAscii " ~\x27null\x27: #\"0x1F\" " := by decide
  have hnumber : IsAscii "0x10" := by decide
  have haccepted := read_write { MemoryMap.standard with name := _ } hname
  have hrefused := read_write { MemoryMap.standard with name := _, heapBase := 0 } hnumber
  exact ⟨hname, rfl, haccepted.1 rfl, hnumber, rfl, (hrefused.2.1 _ rfl).1⟩

end ConfigFile

end MipsMemory
