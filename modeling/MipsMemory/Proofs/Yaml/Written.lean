import MipsMemory.Proofs.Yaml.Scalars

/-!
Texts of one line as they are written. A text may go without quotes if nothing in it means anything
else than itself; names and numerals always may. Main statement: printable text of one line is
written plain if it may be and not taken for something else than text, and otherwise between single
quotes.
-/

namespace MipsMemory.Yaml

variable {cs r : List Char}

/-! ## Texts that may be written without quotes -/

/-- A text that stands for itself as the value of a key. -/
structure PlainScalar (cs : List Char) : Prop extends PlainRun cs where
  starts_plainly : Written.startsSpecially cs = false

namespace Written

theorem hasInnerIndicator_of_suffix {cs' : List Char} (hs : cs' <:+ cs)
    (h : hasInnerIndicator cs = false) : hasInnerIndicator cs' = false := by
  induction cs with
  | nil => rwa [List.suffix_nil.mp hs]
  | cons c cs ih =>
    rcases List.suffix_cons_iff.mp hs with rfl | hs
    · exact h
    · refine ih hs ?_
      cases cs with
      | nil => rfl
      | cons d cs => exact (Bool.or_eq_false_iff.mp h).2

/-- Neither a colon at the end of a word nor a hash sign at the start of one, as far as words of the
same line go. -/
theorem eq_false_of_hasInnerIndicator {a b : Char} (hs : a :: b :: r <:+ cs)
    (h : hasInnerIndicator cs = false) :
    (b = ':' → atWordEnd r = false) ∧ (b = '#' → isBlank a = false) := by
  have := hasInnerIndicator_of_suffix hs h
  simp only [hasInnerIndicator, Bool.or_eq_false_iff, Bool.and_eq_false_imp, beq_iff_eq] at this
  exact ⟨this.1.1, fun hb => (this.1.2 hb).1⟩

theorem isBlank_eq_false_of_isPrintable {c : Char} (h : isPrintable c = true)
    (hc : isSpace c = false) : isBlank c = false := by
  rw [← Bool.not_eq_true, isBlank_iff]
  rintro (rfl | rfl)
  · exact absurd hc (by decide)
  · exact absurd h (by decide)

theorem eq_false_of_startsSpecially {c : Char} (h : startsSpecially (c :: r) = false) :
    isIndicator c = false ∧ (c = '?' ∨ c = ':' ∨ c = '-' → atWordEnd r = false) := by
  simp only [startsSpecially, Bool.or_eq_false_iff, Bool.and_eq_false_imp, Bool.or_eq_true,
    beq_iff_eq, or_assoc] at h
  exact h.1.1

end Written

theorem PlainScalar.of_mayBePlain (h : Written.mayBePlain cs = true) (hne : cs ≠ []) :
    PlainScalar cs := by
  simp only [Written.mayBePlain, Written.isSpecial, Bool.not_eq_true', Bool.or_eq_false_iff,
    List.any_eq_false, Bool.not_eq_true, Bool.not_eq_false] at h
  obtain ⟨⟨⟨⟨⟨hstart, hinner⟩, hprint, -⟩, hbreak⟩, hfirst⟩, hlast⟩ := h
  have hink {c : Char} (hc : c ∈ cs) (hspace : Written.isSpace c = false) : isBlank c = false :=
    Written.isBlank_eq_false_of_isPrintable (hprint c hc) hspace
  refine ⟨⟨⟨hbreak, ?colon, ?hash, ?last⟩, ?starts, ?unhashed⟩, hstart⟩
  case colon =>
    rintro r ⟨before, rfl⟩
    rcases before.eq_nil_or_concat' with rfl | ⟨before, a, rfl⟩
    · exact (Written.eq_false_of_startsSpecially hstart).2 (by simp)
    · exact (Written.eq_false_of_hasInnerIndicator (a := a) ⟨before, by simp⟩ hinner).1 rfl
  case hash =>
    exact fun b r hs => (Written.eq_false_of_hasInnerIndicator hs hinner).2 rfl
  case last =>
    rintro b ⟨before, rfl⟩
    exact hink (by simp) (by simpa using hlast)
  case starts =>
    obtain ⟨c, cs, rfl⟩ := List.exists_cons_of_ne_nil hne
    simp [atWordEnd, hink List.mem_cons_self (by simpa using hfirst), hbreak]
  case unhashed =>
    intro hhead
    obtain ⟨r, rfl⟩ := List.head?_eq_some_iff.mp hhead
    exact absurd (Written.eq_false_of_startsSpecially hstart).1 (by decide)

/-! ## Names -/

/-- A small letter, a digit or an underscore, which mean nothing else than themselves anywhere. -/
def isNameChar (c : Char) : Bool := ('a' ≤ c && c ≤ 'z') || ('0' ≤ c && c ≤ '9') || c == '_'

section

variable {c : Char}

theorem ne_of_isNameChar (hc : isNameChar c = true) {d : Char} (hd : isNameChar d = false) :
    c ≠ d := by
  rintro rfl
  exact absurd hc (by simp [hd])

theorem isInk_of_isNameChar (h : isNameChar c = true) : isInk c = true := by
  have hne {d : Char} (hd : isNameChar d = false) : (c == d) = false :=
    beq_eq_false_iff_ne.mpr (ne_of_isNameChar h hd)
  simp only [isInk, isBlank, isBreak]
  rw [hne (by decide), hne (by decide), hne (by decide), hne (by decide), hne (by decide),
    hne (by decide), hne (by decide)]
  rfl

theorem isPrintable_of_isNameChar (h : isNameChar c = true) : Written.isPrintable c = true := by
  have hrange : 0x20 ≤ c.toNat ∧ c.toNat ≤ 0x7e := by
    simp only [isNameChar, Bool.or_eq_true, Bool.and_eq_true, decide_eq_true_eq, beq_iff_eq] at h
    rcases h with (h | h) | rfl
    · have : 0x61 ≤ c.toNat ∧ c.toNat ≤ 0x7a := h
      omega
    · have : 0x30 ≤ c.toNat ∧ c.toNat ≤ 0x39 := h
      omega
    · decide
  simp [Written.isPrintable, hrange]

theorem isAllowed_of_isPrintable (h : Written.isPrintable c = true) : isAllowed c = true := by
  have hvalid : c.toNat < 0xd800 ∨ 0xdfff < c.toNat ∧ c.toNat < 0x110000 := c.valid
  simp only [Written.isPrintable, isAllowed, Bool.or_eq_true, Bool.and_eq_true, beq_iff_eq,
    decide_eq_true_eq, bne_iff_ne] at h ⊢
  omega

theorem isIndicator_of_isNameChar (h : isNameChar c = true) : Written.isIndicator c = false := by
  have hlist : c ∉ "#,[]\x7b\x7d&*!|>\x27\"%@".toList := by
    have hall : "#,[]\x7b\x7d&*!|>\x27\"%@".toList.all (!isNameChar ·) = true := by decide
    exact fun hc => absurd (List.all_eq_true.mp hall c hc) (by simp [h])
  have hcode : c.toNat ≠ 0x60 := fun hc =>
    ne_of_isNameChar h (d := Char.ofNat 0x60) (by decide) (by rw [← hc, Char.ofNat_toNat])
  rw [Written.isIndicator, Bool.or_eq_false_iff, List.contains_eq_mem, decide_eq_false_iff_not]
  exact ⟨hlist, beq_eq_false_iff_ne.mpr hcode⟩

end

/-- A nonempty word of such characters. -/
def IsName (cs : List Char) : Prop := cs ≠ [] ∧ ∀ c ∈ cs, isNameChar c = true

theorem PlainScalar.of_isName (h : IsName cs) : PlainScalar cs := by
  obtain ⟨hne, hname⟩ := h
  have hcolon : ':' ∉ cs := fun hc => absurd (hname _ hc) (by decide)
  have hhash : '#' ∉ cs := fun hc => absurd (hname _ hc) (by decide)
  have hink (c : Char) (hc : c ∈ cs) := isInk_iff.mp (isInk_of_isNameChar (hname c hc))
  refine ⟨⟨⟨fun c hc => (hink c hc).2, ?colon, ?hash, ?last⟩, ?starts, ?unhashed⟩, ?plainly⟩
  case colon => exact fun r hr => absurd (hr.subset List.mem_cons_self) hcolon
  case hash => exact fun b r hr => absurd (hr.subset (by simp)) hhash
  case last => exact fun b hb => (hink b (hb.subset List.mem_cons_self)).1
  case starts =>
    obtain ⟨c, cs, rfl⟩ := List.exists_cons_of_ne_nil hne
    exact atWordEnd_eq_false_iff.mpr ⟨c, cs, rfl, isInk_of_isNameChar (hname c List.mem_cons_self)⟩
  case unhashed => exact fun hhead => hhash (List.mem_of_head? hhead)
  case plainly =>
    obtain ⟨c, cs, rfl⟩ := List.exists_cons_of_ne_nil hne
    have hc := hname c List.mem_cons_self
    simp [Written.startsSpecially, isIndicator_of_isNameChar hc, List.isPrefixOf,
      ne_of_isNameChar hc (d := '-') (by decide), ne_of_isNameChar hc (d := '?') (by decide),
      ne_of_isNameChar hc (d := ':') (by decide),
      (ne_of_isNameChar hc (d := '-') (by decide)).symm,
      (ne_of_isNameChar hc (d := '.') (by decide)).symm]

/-! ## Styles -/

namespace Written

/-- Printable text of one line. -/
def IsLine (cs : List Char) : Prop := ∀ c ∈ cs, isPrintable c = true ∧ isBreak c = false

theorem hasPair_eq_false {p q : Char → Bool} (h : (∀ c ∈ cs, p c = false) ∨ ∀ c ∈ cs, q c = false) :
    hasPair p q cs = false := by
  induction cs with
  | nil => rfl
  | cons a cs ih =>
    cases cs with
    | nil => rfl
    | cons b cs =>
      have hrest := ih (h.imp (fun hp c hc => hp c (List.mem_cons_of_mem _ hc))
        fun hq c hc => hq c (List.mem_cons_of_mem _ hc))
      rw [hasPair, hrest, Bool.or_false, Bool.and_eq_false_iff]
      exact h.imp (fun hp => hp a List.mem_cons_self) fun hq => hq b (by simp)

/-- One line is written plain, or else between single quotes. -/
theorem value_of_isLine (h : IsLine cs) :
    (style cs = .plain ∧ PlainScalar cs ∧ value cs = cs ++ ['\n']) ∨
      style cs = .singleQuoted ∧ value cs = '\'' :: singleQuoted false cs ++ ['\'', '\n'] := by
  have hbreak (c : Char) (hc : c ∈ cs) := (h c hc).2
  have hspecial : isSpecial cs = false := by
    rw [isSpecial, hasPair_eq_false (.inr hbreak), Bool.or_false, List.any_eq_false]
    exact fun c hc => by simp [(h c hc).1]
  have hline : cs.contains '\n' = false := by
    rw [List.contains_eq_mem, decide_eq_false_iff_not]
    exact fun hc => absurd (hbreak _ hc) (by decide)
  have hquotes : mayBeSingleQuoted cs = true := by
    simp [mayBeSingleQuoted, hspecial, hasPair_eq_false (.inl hbreak)]
  have hstyle : style cs = if mayBePlain cs && !isAmbiguous cs then .plain else .singleQuoted := by
    simp only [style, hline, hquotes, Bool.false_eq_true, if_false, if_true]
  by_cases hplain : mayBePlain cs && !isAmbiguous cs
  · rw [if_pos hplain] at hstyle
    rw [Bool.and_eq_true, Bool.not_eq_true'] at hplain
    have hne : cs ≠ [] := by
      rintro rfl
      exact absurd hplain.2 (by decide)
    exact .inl ⟨hstyle, .of_mayBePlain hplain.1 hne, by rw [value, hstyle]⟩
  · rw [if_neg hplain] at hstyle
    exact .inr ⟨hstyle, by rw [value, hstyle]⟩

/-- Its value ends with the line. -/
theorem dropLast_value (h : IsLine cs) : (value cs).dropLast ++ ['\n'] = value cs := by
  have hend {r : List Char} (hr : value cs = r ++ ['\n']) :
      (value cs).dropLast ++ ['\n'] = value cs := by
    rw [hr, List.dropLast_concat]
  rcases value_of_isLine h with ⟨-, -, hvalue⟩ | ⟨-, hvalue⟩
  · exact hend hvalue
  · exact hend (r := '\'' :: singleQuoted false cs ++ ['\'']) (by simp [hvalue])

theorem isLine_of_ascii (h : ∀ c ∈ cs, ' ' ≤ c ∧ c ≤ '~') : IsLine cs := by
  intro c hc
  have hrange : 0x20 ≤ c.toNat ∧ c.toNat ≤ 0x7e := h c hc
  have hne {d : Char} (hd : d.toNat < 0x20 ∨ 0x7e < d.toNat) : (c == d) = false := by
    rw [beq_eq_false_iff_ne]
    rintro rfl
    omega
  refine ⟨by simp [isPrintable, hrange], ?_⟩
  rw [isBreak, hne (by decide), hne (by decide), hne (by decide), hne (by decide),
    hne (by decide)]
  rfl

theorem isLine_of_isName (h : IsName cs) : IsLine cs := fun c hc =>
  ⟨isPrintable_of_isNameChar (h.2 c hc), (isInk_iff.mp (isInk_of_isNameChar (h.2 c hc))).2⟩

theorem isAllowed_value (h : IsLine cs) {c : Char} (hc : c ∈ value cs) : isAllowed c = true := by
  have hline (c : Char) (hc : c ∈ cs) := isAllowed_of_isPrintable (h c hc).1
  rcases value_of_isLine h with ⟨-, -, hvalue⟩ | ⟨-, hvalue⟩
  · rw [hvalue, List.mem_append, List.mem_singleton] at hc
    rcases hc with hc | rfl
    · exact hline c hc
    · rfl
  · rw [hvalue, List.cons_append, List.mem_cons, List.mem_append] at hc
    rcases hc with rfl | hc | hc
    · rfl
    · rcases mem_singleQuoted (fun d hd => (h d hd).2) hc with hc | rfl
      · exact hline c hc
      · rfl
    · rcases (by simpa using hc : c = '\'' ∨ c = '\n') with rfl | rfl <;> rfl

end Written

end MipsMemory.Yaml
