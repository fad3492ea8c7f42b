import Mathlib.Data.List.Basic
import Mathlib.Data.List.TakeWhile
import MipsMemory.Yaml.Scalar.Plain
import MipsMemory.Yaml.Scalar.Quoted
import MipsMemory.Yaml.Scalar.Written

/-!
Scalars of one line, read back from what is written for them. A plain one is read word by word: no
break stands in it, no colon at the end of a word and no hash sign at the start of one. Main
statements: a plain scalar at the end of a line, a plain key before its colon and a text between
single quotes read as the text they were written for.
-/

namespace MipsMemory.Yaml

/-- Shows on paper: neither a blank nor a break. -/
def isInk (c : Char) : Bool := !isBlank c && !isBreak c

theorem isInk_iff {c : Char} : isInk c = true ↔ isBlank c = false ∧ isBreak c = false := by
  simp [isInk]

theorem isBlank_iff {c : Char} : isBlank c = true ↔ c = ' ' ∨ c = '\t' := by
  simp [isBlank]

theorem ne_return_of_isBreak_eq {c : Char} (h : isBreak c = false) : c ≠ '\r' := by
  rintro rfl
  exact absurd h (by decide)

theorem atWordEnd_eq_false_iff {cs : List Char} :
    atWordEnd cs = false ↔ ∃ c r, cs = c :: r ∧ isInk c = true := by
  cases cs <;> simp [atWordEnd, isInk]

theorem atWordEnd_append {cs tl : List Char} (h : cs ≠ []) :
    atWordEnd (cs ++ tl) = atWordEnd cs := by
  cases cs with
  | nil => exact absurd rfl h
  | cons c cs => rfl

/-! ## Places and gaps -/

theorem byteCount_append (xs ys : List Char) :
    byteCount (xs ++ ys) = byteCount xs + byteCount ys := by
  induction xs with
  | nil => simp [byteCount]
  | cons c xs ih => simp [byteCount, ih, Nat.add_assoc]

namespace Source

theorem skip_append (w r : List Char) (i n column : Nat) :
    (⟨w ++ r, i, n, column⟩ : Source).skip w.length =
      ⟨r, i + byteCount w, n, column + w.length⟩ := by
  simp [skip]

theorem skipTo_append (w r : List Char) (i n column : Nat) :
    (⟨w ++ r, i, n, column⟩ : Source).skipTo r = ⟨r, i + byteCount w, n, column + w.length⟩ := by
  simp [skipTo, skip_append]

theorem atMark_of_column {s : Source} (h : 0 < s.column) : s.atMark = false := by
  simp [atMark, Nat.ne_of_gt h]

end Source

variable {i n column indent : Nat} {cs r rest : List Char}

theorem gapFrom_of_head {crossed : Bool} (h : r.head?.all isInk) :
    gapFrom crossed indent i n column r = some (⟨[], []⟩, ⟨r, i, n, column⟩) := by
  cases r with
  | nil => rfl
  | cons c r =>
    obtain ⟨hblank, hbreak⟩ := isInk_iff.mp (by simpa using h)
    rw [gapFrom.eq_3 _ _ _ _ _ _ _ fun _ heq => absurd heq (ne_return_of_isBreak_eq hbreak)]
    simp [hblank, hbreak]

theorem gapFrom_blanks {blanks : List Char} (hb : ∀ c ∈ blanks, isBlank c = true)
    (h : r.head?.all isInk) :
    gapFrom false indent i n column (blanks ++ r) =
      some (⟨blanks, []⟩, ⟨r, i + byteCount blanks, n, column + blanks.length⟩) := by
  induction blanks generalizing i column with
  | nil => exact gapFrom_of_head h
  | cons c blanks ih =>
    have hc : isBlank c = true := hb c List.mem_cons_self
    have hbreak : isBreak c = false := by
      rcases isBlank_iff.mp hc with rfl | rfl <;> rfl
    rw [List.cons_append,
      gapFrom.eq_3 _ _ _ _ _ _ _ fun _ heq => absurd heq (ne_return_of_isBreak_eq hbreak)]
    simp [hc, hbreak, ih fun d hd => hb d (List.mem_cons_of_mem _ hd), byteCount, Nat.add_assoc]
    omega

theorem gapFrom_newline (h : r.head?.all isInk) :
    gapFrom false indent i n column ('\n' :: r) =
      some (⟨[], ['\n']⟩, ⟨r, i + 1, n + 1, 0⟩) := by
  rw [gapFrom.eq_3 _ _ _ _ _ _ _ fun _ heq => absurd heq (by decide)]
  simp [isBreak, breakText, gapFrom_of_head h, Char.utf8Size]

/-- A text is a word, blanks after it, and more if there are blanks. -/
theorem exists_words (cs : List Char) :
    ∃ gap more, cs = cs.takeWhile (!isBlank ·) ++ (gap ++ more) ∧
      (∀ c ∈ gap, isBlank c = true) ∧ more.head?.all (!isBlank ·) ∧ (gap = [] → more = []) := by
  generalize hafter : cs.dropWhile (!isBlank ·) = after
  refine ⟨after.takeWhile isBlank, after.dropWhile isBlank, ?_, ?_, ?_, ?_⟩
  · rw [List.takeWhile_append_dropWhile, ← hafter, List.takeWhile_append_dropWhile]
  · exact List.all_eq_true.mp List.all_takeWhile
  · have := List.head?_dropWhile_not isBlank after
    cases hhead : (after.dropWhile isBlank).head? <;> simp_all
  · intro hnil
    have := List.head?_dropWhile_not (!isBlank ·) cs
    cases after with
    | nil => rfl
    | cons c after => simp_all

/-! ## Words without quotes -/

/-- What may follow the start of a plain scalar on its line: no break, no colon that ends a word, no
hash sign that starts one, and no blank at the end. -/
structure PlainInside (cs : List Char) : Prop where
  isBreak_eq : ∀ c ∈ cs, isBreak c = false
  colon : ∀ r, ':' :: r <:+ cs → atWordEnd r = false
  hash : ∀ b r, b :: '#' :: r <:+ cs → isBlank b = false
  last : ∀ b, [b] <:+ cs → isBlank b = false

theorem PlainInside.of_suffix {cs' : List Char} (h : PlainInside cs) (hs : cs' <:+ cs) :
    PlainInside cs' where
  isBreak_eq c hc := h.isBreak_eq c (hs.subset hc)
  colon r hr := h.colon r (hr.trans hs)
  hash b r hr := h.hash b r (hr.trans hs)
  last b hb := h.last b (hb.trans hs)

/-- A word ends at a blank, or with the text if what follows the text ends a word. -/
theorem PlainInside.plainWord?_append {tail : List Char} (h : PlainInside cs)
    (htail : plainWord? false tail = some []) :
    plainWord? false (cs ++ tail) = some (cs.takeWhile (!isBlank ·)) := by
  induction cs with
  | nil => exact htail
  | cons c r ih =>
    have hbreak := h.isBreak_eq c List.mem_cons_self
    have hcolon : (c == ':' && atWordEnd (r ++ tail)) = false := by
      rw [Bool.and_eq_false_imp]
      intro hc
      obtain rfl := eq_of_beq hc
      have hr := h.colon r (List.suffix_refl _)
      rwa [atWordEnd_append]
      rintro rfl
      exact absurd hr (by decide)
    cases hblank : isBlank c with
    | true => simp [plainWord?, hblank]
    | false =>
      rw [List.cons_append, plainWord?, ih (h.of_suffix (List.suffix_cons c r))]
      simp [hblank, hbreak, hcolon]

/-- What a plain scalar reads on to the end of its line, from the start of a word. -/
structure PlainRun (cs : List Char) : Prop extends PlainInside cs where
  starts : atWordEnd cs = false
  unhashed : cs.head? ≠ some '#'

/-- After a blank that is not the last a word follows. -/
theorem PlainInside.run {before : List Char} {b : Char} (h : PlainInside cs)
    (hcs : before ++ b :: rest = cs) (hb : isBlank b = true)
    (hrest : rest.head?.all (!isBlank ·)) : PlainRun rest := by
  have hsuffix : b :: rest <:+ cs := ⟨before, hcs⟩
  refine ⟨h.of_suffix ((List.suffix_cons b rest).trans hsuffix), ?_, ?_⟩
  · cases rest with
    | nil => exact absurd (h.last b hsuffix) (by simp [hb])
    | cons c rest =>
      have hc := h.isBreak_eq c (hsuffix.subset (by simp))
      simpa [atWordEnd, hc] using hrest
  · intro hhash
    obtain ⟨r, rfl⟩ := List.head?_eq_some_iff.mp hhash
    exact absurd (h.hash b r hsuffix) (by simp [hb])

theorem PlainRun.takeWhile_ne_nil (h : PlainRun cs) : cs.takeWhile (!isBlank ·) ≠ [] := by
  obtain ⟨c, r, rfl, hc⟩ := atWordEnd_eq_false_iff.mp h.starts
  simp [(isInk_iff.mp hc).1]

/-- One word of a plain scalar and the gap after it. -/
theorem plainFrom_word {word tail joint : List Char} {crossed : Bool} {g : Gap} {next : Source}
    (hmark : (⟨word ++ tail, i, n, column⟩ : Source).atMark = false)
    (hhash : (word ++ tail).head? ≠ some '#') (hne : word ≠ [])
    (hword : plainWord? false (word ++ tail) = some word)
    (hgap : gapFrom false indent (i + byteCount word) n (column + word.length) tail =
      some (g, next))
    (hlen : next.rest.length ≤ tail.length) :
    plainFrom false indent joint crossed ⟨word ++ tail, i, n, column⟩ =
      if next.column < indent then some ⟨joint ++ word, g.crosses, next⟩
      else (plainFrom false indent g.text g.crosses next).map fun more =>
        { more with text := joint ++ word ++ more.text } := by
  have hlt : next.rest.length < (word ++ tail).length := by
    have := List.length_pos_iff.mpr hne
    rw [List.length_append]
    omega
  rw [plainFrom, hmark, hword]
  simp only [Source.skip_append, Source.gap, hgap, hlt, if_true, Bool.not_false, Bool.true_and,
    decide_eq_true_eq, Bool.false_or, beq_iff_eq, hhash, if_false]

/-- A plain scalar at the end of a line is read to that end. -/
theorem PlainRun.plainFrom_line (h : PlainRun cs) (hrest : rest.head?.all isInk)
    (joint : List Char) (crossed : Bool) (hcolumn : 0 < column) :
    plainFrom false 1 joint crossed ⟨cs ++ '\n' :: rest, i, n, column⟩ =
      some ⟨joint ++ cs, true, ⟨rest, i + byteCount cs + 1, n + 1, 0⟩⟩ := by
  induction hlength : cs.length using Nat.strongRecOn generalizing cs i column joint crossed with
  | ind k ih =>
  have hread : plainWord? false (cs ++ '\n' :: rest) = some (cs.takeWhile (!isBlank ·)) :=
    h.plainWord?_append rfl
  have hhash : (cs ++ '\n' :: rest).head? ≠ some '#' := by
    obtain ⟨c, r, rfl, -⟩ := atWordEnd_eq_false_iff.mp h.starts
    exact h.unhashed
  obtain ⟨gap, more, hcs, hgap, hmore, hlast⟩ := exists_words cs
  generalize hword : cs.takeWhile (!isBlank ·) = word at hcs hread
  have hne : word ≠ [] := hword ▸ h.takeWhile_ne_nil
  have hmark (tail : List Char) : (⟨word ++ tail, i, n, column⟩ : Source).atMark = false :=
    Source.atMark_of_column hcolumn
  -- After the first word the line ends, or a shorter run follows some blanks.
  rcases gap.eq_nil_or_concat' with rfl | ⟨blanks, b, rfl⟩
  · obtain rfl := hlast rfl
    obtain rfl : cs = word := by simpa using hcs
    rw [plainFrom_word (hmark _) hhash hne hread (gapFrom_newline hrest) (Nat.le_succ _)]
    simp [Gap.crosses]
  · have hrun : PlainRun more :=
      h.run (by simpa using hcs.symm : word ++ blanks ++ b :: more = cs) (hgap b (by simp)) hmore
    have hhead : (more ++ '\n' :: rest).head?.all isInk := by
      obtain ⟨c, r, rfl, hc⟩ := atWordEnd_eq_false_iff.mp hrun.starts
      simpa using hc
    have hshort : more.length < k := by
      rw [← hlength, hcs]
      simp only [List.length_append, List.length_singleton]
      omega
    rw [hcs, List.append_assoc, List.append_assoc] at hhash hread ⊢
    rw [plainFrom_word (hmark _) hhash hne hread (gapFrom_blanks hgap hhead)
      (by simp only [List.length_append]; omega)]
    have hnext : 0 < column + word.length + (blanks ++ [b]).length := by omega
    rw [if_neg (Nat.not_lt.mpr hnext), ih _ hshort hrun _ _ hnext rfl]
    simp [Gap.text, byteCount_append, byteCount, Nat.add_assoc]

/-- A word is read up to a colon that a blank follows. -/
theorem PlainInside.plainFrom_colon {word : List Char} (rest : List Char) (h : PlainInside word)
    (hne : word ≠ []) (hblank : ∀ c ∈ word, isBlank c = false) (hhash : word.head? ≠ some '#')
    (hmark : (⟨word ++ ':' :: ' ' :: rest, i, n, column⟩ : Source).atMark = false)
    (hindent : indent ≤ column + word.length) :
    plainFrom false indent [] false ⟨word ++ ':' :: ' ' :: rest, i, n, column⟩ =
      some ⟨word, false,
        ⟨':' :: ' ' :: rest, i + byteCount word, n, column + word.length⟩⟩ := by
  have hread : plainWord? false (word ++ ':' :: ' ' :: rest) = some word := by
    rw [h.plainWord?_append rfl, List.takeWhile_eq_self_iff.mpr (by simpa using hblank)]
  have hhead : (word ++ ':' :: ' ' :: rest).head? ≠ some '#' := by
    cases word with
    | nil => exact absurd rfl hne
    | cons c word => exact hhash
  rw [plainFrom_word hmark hhead hne hread (gapFrom_of_head rfl) (Nat.le_refl _),
    if_neg (Nat.not_lt.mpr hindent), plainFrom]
  simp [plainWord?, atWordEnd, isBlank, Source.atMark, Source.tripled, Gap.crosses]

/-! ## Texts between single quotes -/

namespace Written

/-- On one line only quotes are written otherwise than as themselves. -/
theorem singleQuoted_cons {c : Char} (hc : isBreak c = false) (r : List Char) :
    singleQuoted false (c :: r) =
      (if c = '\'' then ['\'', '\''] else [c]) ++ singleQuoted false r := by
  simp [singleQuoted, hc]

theorem mem_singleQuoted (h : ∀ c ∈ cs, isBreak c = false) {d : Char}
    (hd : d ∈ singleQuoted false cs) : d ∈ cs ∨ d = '\'' := by
  induction cs with
  | nil => exact absurd hd List.not_mem_nil
  | cons c cs ih =>
    rw [singleQuoted_cons (h c List.mem_cons_self)] at hd
    rcases List.mem_append.mp hd with hd | hd
    · split at hd <;> simp_all
    · exact (ih (fun e he => h e (List.mem_cons_of_mem _ he)) hd).imp_left
        (List.mem_cons_of_mem _)

theorem singleQuoted_append {xs : List Char} (h : ∀ c ∈ xs, isBreak c = false) (ys : List Char) :
    singleQuoted false (xs ++ ys) = singleQuoted false xs ++ singleQuoted false ys := by
  induction xs with
  | nil => rfl
  | cons c xs ih =>
    have hc := h c List.mem_cons_self
    rw [List.cons_append, singleQuoted_cons hc, singleQuoted_cons hc,
      ih fun d hd => h d (List.mem_cons_of_mem _ hd), List.append_assoc]

theorem singleQuoted_blanks {blanks : List Char} (h : ∀ c ∈ blanks, isBlank c = true) :
    singleQuoted false blanks = blanks := by
  induction blanks with
  | nil => rfl
  | cons c blanks ih =>
    have hblanks := ih fun d hd => h d (List.mem_cons_of_mem _ hd)
    rcases isBlank_iff.mp (h c List.mem_cons_self) with rfl | rfl
    all_goals rw [singleQuoted_cons (by decide), hblanks]; rfl

/-- A word between quotes ends at a blank or at the closing quote. -/
theorem singleWord_singleQuoted (rest : List Char) (h : ∀ c ∈ cs, isBreak c = false) :
    singleWord (singleQuoted false cs ++ '\'' :: '\n' :: rest) =
      (cs.takeWhile (!isBlank ·),
        singleQuoted false (cs.dropWhile (!isBlank ·)) ++ '\'' :: '\n' :: rest) := by
  induction cs with
  | nil => rfl
  | cons c r ih =>
    have hc := h c List.mem_cons_self
    have hr := ih fun d hd => h d (List.mem_cons_of_mem _ hd)
    rw [singleQuoted_cons hc]
    by_cases hquote : c = '\''
    · subst hquote
      simp [singleWord, hr, isBlank]
    · rw [if_neg hquote, List.singleton_append, List.cons_append,
        singleWord.eq_3 _ _ (fun _ heq => absurd heq hquote) hquote, hr]
      cases hblank : isBlank c with
      | true => simp [hblank, singleQuoted_cons hc, hquote]
      | false => simp [hblank, hc]

end Written

/-- A word between quotes that the closing quote follows. -/
theorem quotedFrom_close {written word : List Char}
    (hmark : (⟨written ++ '\'' :: rest, i, n, column⟩ : Source).atMark = false)
    (hword : singleWord (written ++ '\'' :: rest) = (word, '\'' :: rest)) :
    quotedFrom false ⟨written ++ '\'' :: rest, i, n, column⟩ =
      some (word, ⟨rest, i + byteCount written + 1, n, column + written.length + 1⟩) := by
  rw [quotedFrom, hmark, hword]
  simp [Source.skipTo_append, Source.skip, byteCount, Char.utf8Size]

/-- A word between quotes and the blanks after it. -/
theorem quotedFrom_blanks {written word blanks tail : List Char} (hne : blanks ≠ [])
    (hblanks : ∀ c ∈ blanks, isBlank c = true) (htail : tail.head?.all isInk)
    (hmark : (⟨written ++ (blanks ++ tail), i, n, column⟩ : Source).atMark = false)
    (hword : singleWord (written ++ (blanks ++ tail)) = (word, blanks ++ tail)) :
    quotedFrom false ⟨written ++ (blanks ++ tail), i, n, column⟩ =
      (quotedFrom false ⟨tail, i + byteCount written + byteCount blanks, n,
        column + written.length + blanks.length⟩).map
        fun (more, finish) => (word ++ blanks ++ more, finish) := by
  obtain ⟨b, others, rfl⟩ := List.exists_cons_of_ne_nil hne
  have hgap : gapFrom false 0 (i + byteCount written) n (column + written.length)
      (b :: others ++ tail) = some (⟨b :: others, []⟩, _) := gapFrom_blanks hblanks htail
  rw [quotedFrom, hmark, hword]
  simp only [Source.skipTo_append, Bool.false_eq_true, if_false]
  rw [List.cons_append] at hgap ⊢
  rcases isBlank_iff.mp (hblanks b List.mem_cons_self) with rfl | rfl
  all_goals
    simp [Source.gap, hgap, Gap.text]
    omega

/-- A text between single quotes is read to the closing quote. -/
theorem quotedFrom_singleQuoted (rest : List Char) (h : ∀ c ∈ cs, isBreak c = false)
    (hcolumn : 0 < column) :
    quotedFrom false ⟨Written.singleQuoted false cs ++ '\'' :: '\n' :: rest, i, n, column⟩ =
      some (cs, ⟨'\n' :: rest, i + byteCount (Written.singleQuoted false cs) + 1, n,
        column + (Written.singleQuoted false cs).length + 1⟩) := by
  induction hlength : cs.length using Nat.strongRecOn generalizing cs i column with
  | ind k ih =>
  have hread := Written.singleWord_singleQuoted rest h
  have hmark (s : List Char) : (⟨s, i, n, column⟩ : Source).atMark = false :=
    Source.atMark_of_column hcolumn
  obtain ⟨gap, more, hcs, hgap, hmore, hlast⟩ := exists_words cs
  rw [List.append_cancel_left (List.takeWhile_append_dropWhile.trans hcs)] at hread
  generalize cs.takeWhile (!isBlank ·) = word at hcs hread
  subst hcs
  rw [Written.singleQuoted_append fun c hc => h c (List.mem_append_left _ hc)] at hread ⊢
  have hrest (c : Char) (hc : c ∈ gap ++ more) := h c (List.mem_append_right _ hc)
  rw [Written.singleQuoted_append fun c hc => hrest c (List.mem_append_left _ hc),
    Written.singleQuoted_blanks hgap] at hread ⊢
  -- Other than plain, the text may also be empty, start with blanks or end with them.
  by_cases hne : gap = []
  · obtain rfl := hlast hne
    subst hne
    simpa [Written.singleQuoted] using
      quotedFrom_close (hmark _) (by simpa [Written.singleQuoted] using hread)
  · have hmoreBreak (c : Char) (hc : c ∈ more) := hrest c (List.mem_append_right _ hc)
    have hhead : (Written.singleQuoted false more ++ '\'' :: '\n' :: rest).head?.all isInk := by
      cases more with
      | nil => rfl
      | cons c more =>
        rw [Written.singleQuoted_cons (hmoreBreak c List.mem_cons_self)]
        split
        · rfl
        · simpa [isInk, hmoreBreak c List.mem_cons_self] using hmore
    have hshort : more.length < k := by
      have := List.length_pos_iff.mpr hne
      simp only [List.length_append] at hlength
      omega
    simp only [List.append_assoc] at hread ⊢
    rw [quotedFrom_blanks hne hgap hhead (hmark _) hread, ih _ hshort hmoreBreak (by omega) rfl]
    simp [byteCount_append, Nat.add_assoc]

end MipsMemory.Yaml
