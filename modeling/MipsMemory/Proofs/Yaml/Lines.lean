import MipsMemory.Proofs.Yaml.Written
import MipsMemory.Yaml.Token.Lexer

/-!
A mapping written on lines of its own, one for each entry. Reading a line takes three steps: the
key, the colon, which shows that it was one, and the value, which takes the end of the line with it.
Main statement: lines that each hold a name and a value that reads as a scalar are the tokens of a
mapping of these scalars.
-/

namespace MipsMemory.Yaml

variable {c : Char} {cs r rest : List Char} {i n column : Nat}

theorem Written.isIndicator_eq_false_iff :
    isIndicator c = false ↔
      c ≠ '#' ∧ c ≠ ',' ∧ c ≠ '[' ∧ c ≠ ']' ∧ c ≠ '\x7b' ∧ c ≠ '\x7d' ∧ c ≠ '&' ∧ c ≠ '*' ∧
        c ≠ '!' ∧ c ≠ '|' ∧ c ≠ '>' ∧ c ≠ '\'' ∧ c ≠ '"' ∧ c ≠ '%' ∧ c ≠ '@' ∧ c.toNat ≠ 0x60 := by
  simp [isIndicator, and_assoc]

/-- Stands for itself in front of what follows it. -/
structure StartsPlainly (c : Char) (r : List Char) : Prop where
  isInk : isInk c = true
  isIndicator : Written.isIndicator c = false
  touches : c = '?' ∨ c = ':' ∨ c = '-' → atWordEnd r = false

theorem PlainScalar.startsPlainly (h : PlainScalar cs) (tail : List Char) :
    ∃ c r, cs ++ tail = c :: r ∧ StartsPlainly c r := by
  obtain ⟨c, r, rfl, hink⟩ := atWordEnd_eq_false_iff.mp h.starts
  obtain ⟨hindicator, htouches⟩ := Written.eq_false_of_startsSpecially h.starts_plainly
  refine ⟨c, r ++ tail, rfl, hink, hindicator, fun hc => ?_⟩
  have hr := htouches hc
  rwa [atWordEnd_append]
  rintro rfl
  exact absurd hr (by decide)

theorem StartsPlainly.startsPlain (h : StartsPlainly c r) : startsPlain false (c :: r) = true := by
  obtain ⟨hblank, hbreak⟩ := isInk_iff.mp h.isInk
  have hindicator := Written.isIndicator_eq_false_iff.mp h.isIndicator
  have htouches := h.touches
  unfold Yaml.startsPlain
  split <;> rename_i heq <;> cases heq
  · obtain ⟨d, r, rfl, hd⟩ := atWordEnd_eq_false_iff.mp (htouches (by simp))
    simp [(isInk_iff.mp hd).1]
  · simp [htouches]
  · simp [htouches]
  · simp [hblank, hbreak, isFlowIndicator, hindicator]

namespace Lexer

variable {l : Lexer}

/-- What starts plainly outside flow collections is read as a plain scalar. -/
theorem next_eq_plain (h : StartsPlainly c r) (hrest : l.source.rest = c :: r)
    (hmark : l.source.atMark = false) (hflow : l.outerKeys = []) : l.next = l.plain := by
  have hindicator := Written.isIndicator_eq_false_iff.mp h.isIndicator
  have htouches {d : Char} (hd : d = '?' ∨ d = ':' ∨ d = '-') :
      (c == d && atWordEnd r) = false := by
    simpa using fun hc : c = d => h.touches (hc ▸ hd)
  unfold next
  rw [hrest]
  simp [hindicator, hmark, inFlow, hflow, h.startsPlain, htouches]

theorem next_eq_quoted (hrest : l.source.rest = '\'' :: r) (hmark : l.source.atMark = false) :
    l.next = l.quoted false := by
  unfold next
  rw [hrest]
  simp [hmark]

theorem plain_eq {saved : Lexer} {p : PlainText} (hsave : l.saveKey = some saved)
    (hread : saved.source.plain saved.inFlow saved.innerColumn = some p) :
    l.plain =
      some { (saved.allow p.crossed).push (.scalar p.text .plain) with source := p.source } := by
  simp [plain, hsave, hread]

theorem quoted_eq {saved : Lexer} {text : List Char} {source : Source}
    (hsave : l.saveKey = some saved) (hread : saved.source.quoted false = some (text, source)) :
    l.quoted false =
      some { (saved.allow false).push (.scalar text .singleQuoted) with source } := by
  simp [quoted, hsave, hread]

/-! ## Between tokens -/

theorem spaceFrom_of_isInk {flow allowed : Bool} (hink : isInk c = true) (hhash : c ≠ '#')
    (hmark : column = 0 → c ≠ '\ufeff') :
    spaceFrom flow allowed false i n column (c :: r) = (⟨c :: r, i, n, column⟩, allowed) := by
  obtain ⟨hblank, hbreak⟩ := isInk_iff.mp hink
  have hspace : c ≠ ' ' ∧ c ≠ '\t' := not_or.mp (isBlank_iff.not.mp (by simp [hblank]))
  rw [spaceFrom.eq_3 _ _ _ _ _ _ _ _ fun _ heq => absurd heq (ne_return_of_isBreak_eq hbreak)]
  have hstart : (c == '\ufeff' && column == 0) = false := by
    simpa using fun hmarked hcolumn => hmark hcolumn hmarked
  simp [hbreak, hspace, hhash, hstart]

/-- At the start of a line outside flow collections. -/
def atLine (rest : List Char) (i n : Nat) (tokens : List Token) (indents : List Nat) : Lexer :=
  ⟨⟨rest, i, n, 0⟩, tokens, tokens.length, indents, none, [], true⟩

/-- After the colon of a key that starts its line. -/
def atValue (rest : List Char) (i n column : Nat) (tokens : List Token) : Lexer :=
  ⟨⟨rest, i, n, column⟩, tokens, tokens.length, [0], none, [], false⟩

variable {before : List Token} {indents : List Nat}

/-- No collection is open, or one that starts at the left end of the lines. -/
def Leftmost (indents : List Nat) : Prop := indents = [] ∨ indents = [0]

theorem unroll_of_leftmost (h : Leftmost l.indents) (column : Nat) : l.unroll column = l := by
  have hnone : l.indents.takeWhile (column + 1 ≤ ·) = [] := by rcases h with h | h <;> simp [h]
  unfold unroll
  split
  · rfl
  · rw [close, hnone]
    rfl

theorem dropStaleKeys_eq (houter : l.outerKeys = []) (hkey : l.keyStart.all (!l.isStale ·)) :
    l.dropStaleKeys = some l := by
  obtain ⟨source, tokens, count, indents, keyStart, outerKeys, keyAllowed⟩ := l
  cases keyStart with
  | none => simp_all [dropStaleKeys]
  | some k => simp_all [dropStaleKeys]

/-- Between tokens only space is passed over while no line ends a collection or a key. -/
theorem prepare_eq (hindents : Leftmost l.indents) (houter : l.outerKeys = [])
    (hkey : l.keyStart.all (!l.skipSpace.isStale ·)) : l.prepare = some l.skipSpace := by
  rw [prepare, dropStaleKeys_eq (l := l.skipSpace) houter hkey, Option.map_some]
  exact congrArg some (unroll_of_leftmost (l := l.skipSpace) hindents _)

/-- One token. -/
theorem run_succ {p next : Lexer} (hp : l.prepare = some p) (hrest : p.source.rest ≠ [])
    (hnext : p.next = some next) (fuel : Nat) : l.run (fuel + 1) = next.run fuel := by
  simp [run, hp, hrest, hnext]

/-! ## Keys -/

/-- Before the colon of a key that starts its line. -/
def atColon (key rest : List Char) (i n : Nat) (tokens : List Token) (indents : List Nat) : Lexer :=
  ⟨⟨':' :: ' ' :: rest, i + byteCount key, n, key.length⟩, .scalar key .plain :: tokens,
    tokens.length + 1, indents, some ⟨indents.head? == some 0, tokens.length, i, n, 0⟩, [], false⟩

/-- What the first key of a mapping is put behind. -/
def opening (indents : List Nat) : List Token :=
  if indents.isEmpty then [.blockMappingStart] else []

variable {key : List Char}

theorem tripled_of_ne {d : Char} (h : c ≠ d) : Source.tripled d (c :: r) = false := by
  unfold Source.tripled
  split
  · rename_i heq
    cases heq
    simp [h]
  · rfl

theorem innerColumn_le (h : Leftmost l.indents) : l.innerColumn ≤ 1 := by
  unfold innerColumn
  rcases h with h | h <;> simp [h]

theorem next_atLine (hkey : IsName key) (hindents : Leftmost indents) :
    (atLine (key ++ ':' :: ' ' :: rest) i n before indents).next =
      some (atColon key rest i n before indents) := by
  have hplain := PlainScalar.of_isName hkey
  have hchar (c : Char) (hc : c ∈ key) := hkey.2 c hc
  obtain ⟨c, r, hcons, hstarts⟩ := hplain.startsPlainly (':' :: ' ' :: rest)
  have hmark : (⟨key ++ ':' :: ' ' :: rest, i, n, 0⟩ : Source).atMark = false := by
    obtain ⟨c, key, rfl⟩ := List.exists_cons_of_ne_nil hkey.1
    have hc := hchar c List.mem_cons_self
    simp [Source.atMark, tripled_of_ne (ne_of_isNameChar hc (d := '-') (by decide)),
      tripled_of_ne (ne_of_isNameChar hc (d := '.') (by decide))]
  have hlength := List.length_pos_iff.mpr hkey.1
  have hindent : (atLine (key ++ ':' :: ' ' :: rest) i n before indents).innerColumn ≤
      0 + key.length := (innerColumn_le hindents).trans (by omega)
  have hread := hplain.plainFrom_colon rest hkey.1
    (fun c hc => (isInk_iff.mp (isInk_of_isNameChar (hchar c hc))).1) hplain.unhashed hmark hindent
  have hsave : (atLine (key ++ ':' :: ' ' :: rest) i n before indents).saveKey =
      some { atLine (key ++ ':' :: ' ' :: rest) i n before indents with
        keyStart := some ⟨indents.head? == some 0, before.length, i, n, 0⟩ } := rfl
  rw [next_eq_plain hstarts hcons hmark rfl, plain_eq hsave hread]
  simp [atLine, atColon, allow, push]

theorem next_atColon (hindents : Leftmost indents) :
    (atColon key rest i n before indents).next =
      some (atValue (' ' :: rest) (i + byteCount key + 1) n (key.length + 1)
        (.value :: .scalar key .plain :: .key :: opening indents ++ before)) := by
  have hmark : (atColon key rest i n before indents).source.atMark = false := by
    simp [atColon, Source.atMark, tripled_of_ne]
  have hnext : (atColon key rest i n before indents).next =
      (atColon key rest i n before indents).value := by
    unfold next
    rw [hmark]
    rfl
  rw [hnext]
  -- The token that tells the key goes in front of it, and that of the mapping in front of both.
  rcases hindents with rfl | rfl
  all_goals
    simp [value, atColon, atValue, insertAt, roll, inFlow, innerColumn, opening, skip, Source.skip,
      push, byteCount, Char.utf8Size, Nat.add_assoc]

/-! ## Values -/

/-- What may follow the end of a line: nothing, or the key of another. -/
def AtKey (rest : List Char) : Prop := rest.head?.all isNameChar = true

theorem AtKey.spaceFrom_eq (h : AtKey rest) {flow allowed : Bool} :
    spaceFrom flow allowed false i n column rest = (⟨rest, i, n, column⟩, allowed) := by
  cases rest with
  | nil => rfl
  | cons c rest =>
    have hc : isNameChar c = true := by simpa [AtKey] using h
    exact spaceFrom_of_isInk (isInk_of_isNameChar hc) (ne_of_isNameChar hc (by decide))
      fun _ => ne_of_isNameChar hc (by decide)

theorem AtKey.spaceFrom_newline (h : AtKey rest) {allowed : Bool} :
    spaceFrom false allowed false i n column ('\n' :: rest) = (⟨rest, i + 1, n + 1, 0⟩, true) := by
  rw [spaceFrom.eq_3 _ _ _ _ _ _ _ _ fun _ heq => absurd heq (by decide)]
  simp [isBreak, Char.utf8Size, h.spaceFrom_eq]

theorem AtKey.head?_all_isInk (h : AtKey rest) : rest.head?.all isInk := by
  cases rest with
  | nil => rfl
  | cons c rest => exact isInk_of_isNameChar (by simpa [AtKey] using h)

theorem prepare_atLine (h : AtKey rest) (hindents : Leftmost indents) :
    (atLine rest i n before indents).prepare = some (atLine rest i n before indents) := by
  have hskip : (atLine rest i n before indents).skipSpace = atLine rest i n before indents := by
    simp [skipSpace, atLine, h.spaceFrom_eq]
  rw [prepare_eq hindents rfl rfl, hskip]

/-- What is written for a value reads as a scalar, up to and with the end of the line. -/
structure ReadsAs (written text : List Char) (style : Style) : Prop where
  starts : ∃ c r, written = c :: r ∧ isInk c = true ∧ c ≠ '#'
  reads : ∀ (i n column : Nat) (before : List Token) {rest}, AtKey rest → 0 < column →
    ∃ next i', (atValue (written ++ rest) i n column before).next = some next ∧
      next.prepare = some (atLine rest i' (n + 1) (.scalar text style :: before) [0])

theorem saveKey_atValue :
    (atValue rest i n column before).saveKey = some (atValue rest i n column before) := rfl

theorem readsAs_plain (h : PlainScalar cs) : ReadsAs (cs ++ ['\n']) cs .plain where
  starts := by
    obtain ⟨c, r, hcons, hstarts⟩ := h.startsPlainly ['\n']
    exact ⟨c, r, hcons, hstarts.isInk, (Written.isIndicator_eq_false_iff.mp hstarts.isIndicator).1⟩
  reads i n column before rest hrest hcolumn := by
    obtain ⟨c, r, hcons, hstarts⟩ := h.startsPlainly ('\n' :: rest)
    have hread := h.plainFrom_line (i := i) (n := n) hrest.head?_all_isInk [] false hcolumn
    refine ⟨_, i + byteCount cs + 1, ?_, prepare_atLine hrest (.inr rfl)⟩
    rw [List.append_assoc, List.singleton_append,
      next_eq_plain hstarts hcons (Source.atMark_of_column hcolumn) rfl,
      plain_eq saveKey_atValue hread]
    rfl

theorem readsAs_singleQuoted (h : ∀ c ∈ cs, isBreak c = false) :
    ReadsAs ('\'' :: Written.singleQuoted false cs ++ ['\'', '\n']) cs .singleQuoted where
  starts := ⟨'\'', _, rfl, rfl, by decide⟩
  reads i n column before rest hrest hcolumn := by
    have hwritten : '\'' :: Written.singleQuoted false cs ++ ['\'', '\n'] ++ rest =
        '\'' :: (Written.singleQuoted false cs ++ '\'' :: '\n' :: rest) := by simp
    have hread := quotedFrom_singleQuoted rest (i := i + 1) (n := n) h (Nat.succ_pos column)
    have hnext := (next_eq_quoted (l := atValue _ i n column before) rfl
      (Source.atMark_of_column hcolumn)).trans (quoted_eq saveKey_atValue hread)
    refine ⟨_, i + 1 + byteCount (Written.singleQuoted false cs) + 1 + 1,
      (congrArg (fun s => (atValue s i n column before).next) hwritten).trans hnext, ?_⟩
    refine (prepare_eq (.inr rfl) rfl rfl).trans ?_
    simp [skipSpace, atLine, atValue, allow, push, inFlow, hrest.spaceFrom_newline]

theorem readsAs_value (h : Written.IsLine cs) :
    ReadsAs (Written.value cs) cs (Written.style cs) := by
  rcases Written.value_of_isLine h with ⟨hstyle, hplain, hvalue⟩ | ⟨hstyle, hvalue⟩
  · rw [hstyle, hvalue]
    exact readsAs_plain hplain
  · rw [hstyle, hvalue]
    exact readsAs_singleQuoted fun c hc => (h c hc).2

/-! ## Entries -/

theorem prepare_atColon (hbytes : byteCount key ≤ 1024) (hindents : Leftmost indents) :
    (atColon key rest i n before indents).prepare = some (atColon key rest i n before indents) := by
  have hskip :
      (atColon key rest i n before indents).skipSpace = atColon key rest i n before indents := by
    simp [skipSpace, atColon, spaceFrom_of_isInk (c := ':') rfl]
  have hstale : (atColon key rest i n before indents).keyStart.all
      (!(atColon key rest i n before indents).isStale ·) := by
    simpa [atColon, isStale] using hbytes
  rw [prepare_eq hindents rfl (hskip.symm ▸ hstale), hskip]

theorem prepare_atValue (h : isInk c = true) (hhash : c ≠ '#') :
    (atValue (' ' :: c :: r) i n column before).prepare =
      some (atValue (c :: r) (i + 1) n (column + 1) before) := by
  have hspace : spaceFrom false false false i n column (' ' :: c :: r) =
      (⟨c :: r, i + 1, n, column + 1⟩, false) := by
    rw [spaceFrom.eq_3 _ _ _ _ _ _ _ _ fun _ heq => absurd heq (by decide)]
    simp [isBreak, Char.utf8Size, spaceFrom_of_isInk h hhash]
  rw [prepare_eq (.inr rfl) rfl rfl]
  simp [skipSpace, atValue, inFlow, hspace]

/-- An entry of a mapping on a line of its own, and the scalar that its value reads as. -/
structure Entry where
  key : List Char
  written : List Char
  text : List Char
  style : Style

namespace Entry

/-- The line of an entry: key, colon, space, and what is written for the value. -/
def line (e : Entry) : List Char := e.key ++ ':' :: ' ' :: e.written

/-- The tokens that the line of an entry is read as. -/
def tokens (e : Entry) : List Token :=
  [.key, .scalar e.key .plain, .value, .scalar e.text e.style]

/-- The line holds an entry: a name that is not too long, and a value that reads as the scalar. -/
structure Holds (e : Entry) : Prop where
  isName : IsName e.key
  byteCount_le : byteCount e.key ≤ 1024
  readsAs : ReadsAs e.written e.text e.style
  isAllowed : ∀ c ∈ e.written, isAllowed c = true

end Entry

/-- An entry takes three tokens to read, and one that tells its key is put in front of them. -/
theorem run_entry {e : Entry} (h : e.Holds) (hrest : AtKey rest) (hindents : Leftmost indents)
    (hl : l.prepare = some (atLine (e.line ++ rest) i n before indents)) :
    ∃ (l' : Lexer) (i' : Nat),
      l'.prepare =
        some (atLine rest i' (n + 1) (e.tokens.reverse ++ opening indents ++ before) [0]) ∧
      ∀ fuel, l.run (fuel + 3) = l'.run fuel := by
  obtain ⟨c, r, hwritten, hink, hhash⟩ := h.readsAs.starts
  obtain ⟨l', i', hnext, hprepare⟩ := h.readsAs.reads (i + byteCount e.key + 1 + 1) n _
    (.value :: .scalar e.key .plain :: .key :: opening indents ++ before) hrest
    (Nat.succ_pos (e.key.length + 1))
  refine ⟨l', i', by simpa [Entry.tokens] using hprepare, fun fuel => ?_⟩
  have hline : e.line ++ rest = e.key ++ ':' :: ' ' :: (e.written ++ rest) := by simp [Entry.line]
  rw [hline] at hl
  rw [run_succ hl (by simp [atLine]) (next_atLine h.isName hindents),
    run_succ (prepare_atColon h.byteCount_le hindents) (by simp [atColon]) (next_atColon hindents)]
  rw [hwritten] at hnext ⊢
  exact run_succ (prepare_atValue hink hhash) (by simp [atValue]) hnext fuel

theorem Entry.Holds.all_isAllowed {e : Entry} (h : e.Holds) : e.line.all Yaml.isAllowed = true := by
  rw [List.all_eq_true]
  intro c hc
  rw [Entry.line, List.mem_append, List.mem_cons, List.mem_cons] at hc
  rcases hc with hc | rfl | rfl | hc
  · exact isAllowed_of_isPrintable (isPrintable_of_isNameChar (h.isName.2 c hc))
  · rfl
  · rfl
  · exact h.isAllowed c hc

theorem atKey_of_holds {entries : List Entry} (h : ∀ e ∈ entries, e.Holds) :
    AtKey (entries.flatMap Entry.line) := by
  cases entries with
  | nil => rfl
  | cons e entries =>
    obtain ⟨hne, hname⟩ := (h e List.mem_cons_self).isName
    obtain ⟨c, key, hkey⟩ := List.exists_cons_of_ne_nil hne
    simpa [AtKey, Entry.line, hkey] using hname c (by simp [hkey])

/-- The end of the lines closes the mapping. -/
theorem run_end (hl : l.prepare = some (atLine [] i n before [0])) (fuel : Nat) :
    l.run (fuel + 1) = some (before.reverse ++ [.blockEnd]) := by
  simp [run, hl, atLine, finish, closeAll, close, inFlow, dropKey]

/-- Further entries of an open mapping. -/
theorem run_entries {entries : List Entry} (h : ∀ e ∈ entries, e.Holds)
    (hl : l.prepare = some (atLine (entries.flatMap Entry.line) i n before [0])) (fuel : Nat) :
    l.run (3 * entries.length + fuel + 1) =
      some (before.reverse ++ entries.flatMap Entry.tokens ++ [.blockEnd]) := by
  induction entries generalizing l i n before with
  | nil => simpa using run_end hl (3 * 0 + fuel)
  | cons e entries ih =>
    have hrest (e' : Entry) (he : e' ∈ entries) := h e' (List.mem_cons_of_mem _ he)
    obtain ⟨l', i', hl', hrun⟩ :=
      run_entry (h e List.mem_cons_self) (atKey_of_holds hrest) (.inr rfl) hl
    have hfuel : 3 * (e :: entries).length + fuel + 1 = 3 * entries.length + fuel + 1 + 3 := by
      simp only [List.length_cons]
      omega
    rw [hfuel, hrun, ih hrest hl']
    simp [opening]

/-- A mapping whose keys start their lines. -/
def mappingTokens (entries : List Entry) : List Token :=
  .blockMappingStart :: (entries.flatMap Entry.tokens ++ [.blockEnd])

theorem length_le_of_holds {entries : List Entry} (h : ∀ e ∈ entries, e.Holds) :
    3 * entries.length ≤ (entries.flatMap Entry.line).length := by
  induction entries with
  | nil => exact Nat.le_refl 0
  | cons e entries ih =>
    have hkey := List.length_pos_iff.mpr (h e List.mem_cons_self).isName.1
    have hrest := ih fun e' he => h e' (List.mem_cons_of_mem _ he)
    simp only [List.flatMap_cons, List.length_append, List.length_cons, Entry.line]
    omega

end Lexer

/-- Lines that hold entries, one each, are the tokens of a mapping. -/
theorem tokens?_entries {entries : List Lexer.Entry} (h : ∀ e ∈ entries, e.Holds)
    (hne : entries ≠ []) :
    tokens? (entries.flatMap Lexer.Entry.line) = some (Lexer.mappingTokens entries) := by
  have hallowed : (entries.flatMap Lexer.Entry.line).all isAllowed = true := by
    rw [List.all_flatMap, List.all_eq_true]
    exact fun e he => (h e he).all_isAllowed
  have hlength := Lexer.length_le_of_holds h
  have hstart : (Lexer.ofText (entries.flatMap Lexer.Entry.line)).prepare =
      some (.atLine (entries.flatMap Lexer.Entry.line) 0 0 [] []) :=
    Lexer.prepare_atLine (Lexer.atKey_of_holds h) (.inl rfl)
  rw [tokens?, if_pos hallowed]
  obtain ⟨e, entries, rfl⟩ := List.exists_cons_of_ne_nil hne
  have hrest (e' : Lexer.Entry) (he : e' ∈ entries) := h e' (List.mem_cons_of_mem _ he)
  obtain ⟨l', i', hl', hrun⟩ := Lexer.run_entry (h e List.mem_cons_self)
    (Lexer.atKey_of_holds hrest) (.inl rfl) hstart
  obtain ⟨fuel, hfuel⟩ := Nat.exists_eq_add_of_le hlength
  have hfuel' : ((e :: entries).flatMap Lexer.Entry.line).length + 1 =
      3 * entries.length + fuel + 1 + 3 := by
    rw [hfuel, List.length_cons]
    omega
  rw [hfuel', hrun, Lexer.run_entries hrest hl']
  simp [Lexer.mappingTokens, Lexer.opening, Lexer.Entry.tokens]

end MipsMemory.Yaml
