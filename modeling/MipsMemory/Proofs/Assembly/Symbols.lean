import MipsMemory.Proofs.Assembly.Operations
import MipsMemory.Proofs.Directive.Spellings

/-!
The symbols of a unit. Statements that are carried out give rise to events, in which a name is bound
to an allocation: an extern declaration binds its first operand, and a label is bound after it.
Main statement: a unit that is laid out lists each name once, in the order of first events, with the
allocation of its last event, and notes every event of a name that was bound before.
-/

namespace MipsMemory

/-! ## Names in order -/

/-- The names that stand somewhere before, as often as they do. -/
def repeated (names : List String) : List String :=
  (names.zipIdx.filter fun x => x.1 ∈ names.take x.2).map Prod.fst

theorem repeated_append_singleton (names : List String) (name : String) :
    repeated (names ++ [name]) = repeated names ++ if name ∈ names then [name] else [] := by
  have hbefore : names.zipIdx.filter (fun x => x.1 ∈ (names ++ [name]).take x.2) =
      names.zipIdx.filter fun x => x.1 ∈ names.take x.2 := by
    refine List.filter_congr fun x hx => ?_
    have hlt := List.snd_lt_of_mem_zipIdx hx
    rw [List.take_append_of_le_length (by omega)]
  rw [repeated, List.zipIdx_append, List.filter_append, List.map_append, hbefore, repeated]
  congr 1
  by_cases h : name ∈ names <;> simp [h]

theorem eraseDups_append_singleton (names : List String) (name : String) :
    (names ++ [name]).eraseDups = names.eraseDups ++ if name ∈ names then [] else [name] := by
  rw [List.eraseDups_append]
  by_cases h : name ∈ names <;> simp [h, List.removeAll, List.eraseDups_cons]

namespace SymbolTable

/-- The names in the table, in order. -/
def names (t : SymbolTable) : List String := t.symbols.map Binding.name

theorem isSome_get? (t : SymbolTable) (name : String) : (t.get? name).isSome ↔ name ∈ t.names := by
  simp [get?, names, List.find?_isSome]

theorem names_bind (t : SymbolTable) (b : Binding) :
    (t.bind b).names = t.names ++ if b.name ∈ t.names then [] else [b.name] := by
  have hput : (t.bind b).names = if b.name ∈ t.names then t.names else t.names ++ [b.name] :=
    names_put b t.symbols
  rw [hput]
  by_cases h : b.name ∈ t.names <;> simp [h]

theorem redefined_bind (t : SymbolTable) (b : Binding) :
    (t.bind b).redefined = t.redefined ++ if b.name ∈ t.names then [b.name] else [] := by
  simp only [bind, isSome_get?]
  split <;> simp

/-- A binding that is put is the only one of its name. -/
theorem mem_put {b x : Binding} {bs : List Binding} (hnodup : (bs.map Binding.name).Nodup)
    (h : x ∈ put b bs) : x = b ∨ x ∈ bs ∧ x.name ≠ b.name := by
  induction bs with
  | nil => exact .inl (List.mem_singleton.mp h)
  | cons y ys ih =>
    obtain ⟨hy, hys⟩ := List.nodup_cons.mp hnodup
    unfold put at h
    split at h
    · rename_i hname
      rcases List.mem_cons.mp h with rfl | hx
      · exact .inl rfl
      · refine .inr ⟨List.mem_cons_of_mem _ hx, fun he => hy ?_⟩
        rw [hname, ← he]
        exact List.mem_map_of_mem hx
    · rename_i hname
      rcases List.mem_cons.mp h with rfl | hx
      · exact .inr ⟨List.mem_cons_self, hname⟩
      · exact (ih hys hx).imp_right (And.imp_left (List.mem_cons_of_mem _))

/-! ## Tables of events -/

/-- What a table keeps of the events that made it. -/
structure Records (t : SymbolTable) (events : List Binding) : Prop where
  names : t.names = (events.map Binding.name).eraseDups
  nodup : t.names.Nodup
  last : ∀ b ∈ t.symbols, (events.filter (·.name = b.name)).getLast? = some b
  redefined : t.redefined = repeated (events.map Binding.name)
  length : t.symbols.length + t.redefined.length = events.length

theorem records_empty : empty.Records [] :=
  ⟨rfl, List.nodup_nil, nofun, rfl, rfl⟩

theorem Records.bind {t : SymbolTable} {events : List Binding} (h : t.Records events)
    (b : Binding) : (t.bind b).Records (events ++ [b]) := by
  have hmem : b.name ∈ t.names ↔ b.name ∈ events.map Binding.name := by
    rw [h.names, List.mem_eraseDups]
  have hnames := t.names_bind b
  have hredefined := t.redefined_bind b
  refine ⟨?_, ?_, ?_, ?_, ?_⟩
  · rw [hnames, List.map_append, List.map_singleton, eraseDups_append_singleton, h.names]
    simp only [← hmem, h.names]
  · rw [hnames]
    by_cases hb : b.name ∈ t.names
    · rw [if_pos hb, List.append_nil]
      exact h.nodup
    · rw [if_neg hb, List.nodup_append]
      refine ⟨h.nodup, List.pairwise_singleton _ _, fun x hx y hy he => hb ?_⟩
      rw [← List.mem_singleton.mp hy, ← he]
      exact hx
  · intro x hx
    rw [List.filter_append]
    rcases mem_put h.nodup hx with rfl | ⟨hx, hname⟩
    · simp
    · simpa [Ne.symm hname] using h.last x hx
  · rw [hredefined, h.redefined, List.map_append, List.map_singleton, repeated_append_singleton]
    simp only [hmem]
  · have hlength : (t.bind b).names.length = (t.bind b).symbols.length := List.length_map ..
    have hcount := h.length
    have hold : t.names.length = t.symbols.length := List.length_map ..
    rw [hnames] at hlength
    rw [hredefined, List.length_append, List.length_append]
    by_cases hb : b.name ∈ t.names
    · simp [hb] at hlength ⊢
      omega
    · simp [hb] at hlength ⊢
      omega

theorem Records.foldl_bind {t : SymbolTable} {before : List Binding} (h : t.Records before)
    (events : List Binding) : (events.foldl SymbolTable.bind t).Records (before ++ events) := by
  induction events generalizing t before with
  | nil => simpa using h
  | cons b events ih => simpa using ih (h.bind b)

theorem records_ofBindings (events : List Binding) : (ofBindings events).Records events :=
  records_empty.foldl_bind events

end SymbolTable

/-! ## Events of statements -/

namespace Directive

theorem role_eq_externs_iff {d : Directive} (h : d ∈ catalogue) :
    d.role = .declare .externs ↔ d.token = ".extern" := by
  have hall : ∀ d ∈ catalogue, d.role = .declare .externs ↔ d.token = ".extern" := by decide
  exact hall d h

/-- An extern declaration that is carried out has a name and a size, and reserves one piece. -/
theorem shape_of_apply_externs {d : Directive} {operands : List Operand} {a a' : Allocator}
    {items : List Allocation} (hrole : d.role = .declare .externs)
    (h : d.apply operands a = .ok (items, a')) :
    ∃ name size item, operands = [.text name, .int size] ∧ items = [item] := by
  rw [apply_externs hrole] at h
  obtain ⟨size, hsize, h⟩ := bind_eq_ok_iff.mp h
  obtain ⟨⟨item, _⟩, -, he⟩ := map_eq_ok_iff.mp h
  cases he
  unfold externSize at hsize
  split at hsize
  · exact ⟨_, _, item, rfl, rfl⟩
  · cases hsize

end Directive

namespace Assembly

/-- The event of an extern declaration: its first operand is bound to what it reserves. -/
inductive Declares (d : Directive) : List Operand → List Allocation → List Binding → Prop
  | externs (token : d.token = ".extern") (name : String) (size : Int) (item : Allocation) :
      Declares d [.text name, .int size] [item] [⟨name, item⟩]
  | other (token : d.token ≠ ".extern") (operands : List Operand) (items : List Allocation) :
      Declares d operands items []

/-- The event of a label: it is bound to the first piece that its statement reserves, or else to
nothing at the next address. -/
inductive Labels (a : Allocator) : Option String → List Allocation → List Binding → Prop
  | unlabelled (items : List Allocation) : Labels a none items []
  | first (name : String) (item : Allocation) (items : List Allocation) :
      Labels a (some name) (item :: items) [⟨name, item⟩]
  | next (name : String) {address : UInt32} (h : a.address = .ok address) :
      Labels a (some name) [] [⟨name, ⟨a.current, address, 0⟩⟩]

/-- The events of statements that are carried out in turn. A label counts once its statement is
carried out, and after the name that it may declare. -/
inductive Events : Allocator → List Statement → List Binding → Prop
  | nil (a : Allocator) : Events a [] []
  | cons {a a' : Allocator} {s : Statement} {statements : List Statement} {d : Directive}
      {items : List Allocation} {declared labels later : List Binding}
      (known : Directive.lookup s.directive = .ok d)
      (applied : d.apply s.operands a = .ok (items, a'))
      (declares : Declares d s.operands items declared) (labelled : Labels a' s.label items labels)
      (rest : Events a' statements later) :
      Events a (s :: statements) (declared ++ labels ++ later)

variable {a a' : Allocator} {items : List Allocation} {events : List Binding}

theorem declares_iff {token : String} {d : Directive} {operands : List Operand}
    (known : Directive.lookup token = .ok d) (applied : d.apply operands a = .ok (items, a')) :
    Declares d operands items events ↔ events = declared d operands items := by
  have hrole := Directive.role_eq_externs_iff (Directive.mem_catalogue_of_lookup known)
  by_cases htoken : d.token = ".extern"
  · obtain ⟨name, size, item, rfl, rfl⟩ :=
      Directive.shape_of_apply_externs (hrole.mpr htoken) applied
    have hdeclared : declared d [.text name, .int size] [item] = [⟨name, item⟩] := by
      simp only [declared, hrole.mpr htoken]
    rw [hdeclared]
    constructor
    · intro h
      cases h with
      | externs => rfl
      | other hother => exact absurd htoken hother
    · rintro rfl
      exact .externs htoken name size item
  · have hdeclared : declared d operands items = [] := by
      unfold declared
      split
      · exact absurd (hrole.mp ‹_›) htoken
      · rfl
    rw [hdeclared]
    constructor
    · intro h
      cases h with
      | externs hextern => exact absurd hextern htoken
      | other => rfl
    · rintro rfl
      exact .other htoken _ _

theorem labels_iff {label : Option String} :
    Labels a label items events ↔ labelled label items a = .ok events := by
  constructor
  · intro h
    cases h with
    | unlabelled => rfl
    | first => rfl
    | next name h => simp only [labelled, h, Except.map]
  · intro h
    unfold labelled at h
    split at h
    · cases h
      exact .unlabelled _
    · cases h
      exact .first ..
    · obtain ⟨address, haddress, rfl⟩ := map_eq_ok_iff.mp h
      exact .next _ haddress

theorem place_eq_ok_iff {s : Statement} :
    place s a = .ok (events, a') ↔
      ∃ d items labels, Directive.lookup s.directive = .ok d ∧
        d.apply s.operands a = .ok (items, a') ∧ labelled s.label items a' = .ok labels ∧
        events = declared d s.operands items ++ labels := by
  simp only [place, bind_eq_ok_iff]
  constructor
  · rintro ⟨d, hd, ⟨items, b⟩, happly, labels, hlabels, he⟩
    cases he
    exact ⟨d, items, labels, hd, happly, hlabels, rfl⟩
  · rintro ⟨d, items, labels, hd, happly, hlabels, rfl⟩
    exact ⟨d, hd, ⟨items, a'⟩, happly, labels, hlabels, rfl⟩

theorem placeAll_cons_eq_ok_iff {index : Nat} {s : Statement} {statements : List Statement} :
    placeAll index (s :: statements) a = .ok (events, a') ↔
      ∃ here b later, place s a = .ok (here, b) ∧
        placeAll (index + 1) statements b = .ok (later, a') ∧ events = here ++ later := by
  simp only [placeAll, bind_eq_ok_iff, mapError_eq_ok_iff]
  constructor
  · rintro ⟨⟨here, b⟩, hplace, ⟨later, _⟩, hrest, he⟩
    cases he
    exact ⟨here, b, later, hplace, hrest, rfl⟩
  · rintro ⟨here, b, later, hplace, hrest, rfl⟩
    exact ⟨⟨here, b⟩, hplace, ⟨later, a'⟩, hrest, rfl⟩

/-- Statements have events exactly if they can be carried out, and then those that are collected
while they are. -/
theorem events_iff {statements : List Statement} (index : Nat) :
    Events a statements events ↔ ∃ a', placeAll index statements a = .ok (events, a') := by
  induction statements generalizing a events index with
  | nil =>
    constructor
    · intro h
      cases h
      exact ⟨a, rfl⟩
    · rintro ⟨a', h⟩
      cases h
      exact .nil a
  | cons s statements ih =>
    constructor
    · intro h
      cases h with
      | cons known applied declares labels rest =>
        obtain ⟨a', hrest⟩ := (ih (index + 1)).mp rest
        obtain rfl := (declares_iff known applied).mp declares
        exact ⟨a', placeAll_cons_eq_ok_iff.mpr ⟨_, _, _, place_eq_ok_iff.mpr
          ⟨_, _, _, known, applied, labels_iff.mp labels, rfl⟩, hrest, rfl⟩⟩
    · rintro ⟨a', h⟩
      obtain ⟨here, b, later, hplace, hrest, rfl⟩ := placeAll_cons_eq_ok_iff.mp h
      obtain ⟨d, items, labels, known, applied, hlabels, rfl⟩ := place_eq_ok_iff.mp hplace
      exact .cons known applied ((declares_iff known applied).mpr rfl) (labels_iff.mpr hlabels)
        ((ih (index + 1)).mpr ⟨a', hrest⟩)

/-- A unit that is laid out has one sequence of events, and its table records them. -/
theorem symbols_record_events {m : MemoryMap} {statements : List Statement} {u : Assembled}
    (h : layout m statements = .ok u) :
    ∃ events, (∀ es, Events (.fresh m) statements es ↔ es = events) ∧ u.table.Records events := by
  obtain ⟨⟨bindings, a⟩, hplace, rfl⟩ := map_eq_ok_iff.mp h
  refine ⟨bindings, fun es => ?_, SymbolTable.records_ofBindings bindings⟩
  rw [events_iff 0, hplace]
  constructor
  · rintro ⟨a', he⟩
    cases he
    rfl
  · rintro rfl
    exact ⟨a, rfl⟩

/-- One declaration binds a name twice, a label stands for nothing in the segment that its own
statement selects, and another for an empty string. -/
theorem symbols_record_events_standard :
    let m := MemoryMap.standard
    let statements : List Statement :=
      [⟨some "x", ".Extern", [.text "x", .int 4]⟩, ⟨some "y", ".data", []⟩,
        ⟨some "", ".ascii", [.text ""]⟩, ⟨some "x", ".word", [.int 1, .int 2]⟩,
        ⟨none, ".extern", [.text "y", .int 0]⟩]
    ∃ u, layout m statements = .ok u ∧
      (∃ events, (∀ es, Events (.fresh m) statements es ↔ es = events) ∧
        u.table.Records events) ∧
      u.table = ⟨[⟨"x", .data, 0x10010000, 4⟩, ⟨"y", .data, 0x10000004, 0⟩,
        ⟨"", .data, 0x10010000, 0⟩], ["x", "x", "y"]⟩ := by
  intro m statements
  have htable : (layout m statements).toOption.map Assembled.table =
      some ⟨[⟨"x", .data, 0x10010000, 4⟩, ⟨"y", .data, 0x10000004, 0⟩,
        ⟨"", .data, 0x10010000, 0⟩], ["x", "x", "y"]⟩ := by decide +kernel
  cases hu : layout m statements with
  | error failure =>
    rw [hu] at htable
    cases htable
  | ok u =>
    rw [hu] at htable
    exact ⟨u, rfl, symbols_record_events hu, Option.some.inj htable⟩

end Assembly

end MipsMemory
