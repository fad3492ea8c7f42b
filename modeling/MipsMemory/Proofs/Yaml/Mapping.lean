import MipsMemory.Proofs.Yaml.Lines
import MipsMemory.Yaml.Document

/-!
The tree of a mapping written on lines of its own, and what is found in it. Main statements: such
lines are a document of one mapping, whose keys and values are the scalars written, and a key that
is there once is found with its value.
-/

namespace MipsMemory.Yaml

open Read

variable {fuel : Nat} {text : List Char} {style : Style} {tokens : List Token}

/-! ## From tokens to nodes -/

theorem Read.bind_apply {α β : Type} {x : Read α} {f : α → Read β} {r r' : Reader} {a : α}
    (h : x r = some (a, r')) : (x >>= f) r = f a r' := by
  simp [bind, StateT.bind, h]

theorem Read.take?_self (t : Token) (r : Reader) :
    take? t { r with tokens := t :: tokens } = some (true, { r with tokens }) := by
  have hat : at? [t] { r with tokens := t :: tokens } =
      some (true, { r with tokens := t :: tokens }) := by
    change some ([t].contains t, { r with tokens := t :: tokens }) = _
    simp
  rw [take?, bind_apply hat, if_pos rfl]
  rfl

theorem readNode_scalar (fuel : Nat) (block indentless : Bool) (r : Reader) :
    readNode (fuel + 1) block indentless { r with tokens := .scalar text style :: tokens } =
      some (.scalar ⟨text, style, none⟩, { r with tokens }) := by
  rw [readNode]
  rfl

theorem readUnless_scalar (fuel : Nat) (block indentless : Bool) (r : Reader) :
    readUnless (fuel + 2) [.key, .value, .blockEnd] block indentless
        { r with tokens := .scalar text style :: tokens } =
      some (.scalar ⟨text, style, none⟩, { r with tokens }) := by
  rw [readUnless]
  exact readNode_scalar fuel block indentless r

/-- The nodes of an entry's key and value. -/
def Lexer.Entry.nodes (e : Lexer.Entry) : Node × Node :=
  (.scalar ⟨e.key, .plain, none⟩, .scalar ⟨e.text, e.style, none⟩)

theorem blockEntries_entry (fuel : Nat) (e : Lexer.Entry) (r : Reader) :
    blockEntries (fuel + 3) { r with tokens := e.tokens ++ tokens } =
      (blockEntries (fuel + 2) { r with tokens }).map fun (entries, r) =>
        (e.nodes :: entries, r) := by
  have htokens : e.tokens ++ tokens =
      .key :: .scalar e.key .plain :: .value :: .scalar e.text e.style :: tokens := rfl
  rw [htokens, blockEntries, bind_apply (take?_self .key r), if_pos rfl,
    bind_apply (readUnless_scalar fuel true true r), bind_apply (take?_self .value r), if_pos rfl,
    bind_apply (readUnless_scalar fuel true true r), Option.map_eq_bind]
  rfl

theorem blockEntries_end (fuel : Nat) (r : Reader) :
    blockEntries (fuel + 1) { r with tokens := .blockEnd :: tokens } =
      some ([], { r with tokens }) := by
  rw [blockEntries]
  rfl

/-- The entries up to the end of their mapping. -/
theorem blockEntries_entries (entries : List Lexer.Entry) (fuel : Nat) (r : Reader) :
    blockEntries (entries.length + fuel + 2)
        { r with tokens := entries.flatMap Lexer.Entry.tokens ++ .blockEnd :: tokens } =
      some (entries.map Lexer.Entry.nodes, { r with tokens }) := by
  induction entries with
  | nil => exact blockEntries_end (0 + fuel + 1) r
  | cons e entries ih =>
    have hfuel : (e :: entries).length + fuel + 2 = entries.length + fuel + 3 := by
      rw [List.length_cons]
      omega
    rw [hfuel, List.flatMap_cons, List.append_assoc, blockEntries_entry, ih]
    rfl

theorem readNode_mapping (entries : List Lexer.Entry) (fuel : Nat) (indentless : Bool)
    (r : Reader) :
    readNode (entries.length + fuel + 3) true indentless
        { r with tokens := Lexer.mappingTokens entries } =
      some (.mapping (entries.map Lexer.Entry.nodes), { r with tokens := [] }) := by
  have hentries : (Node.mapping <$> blockEntries (entries.length + fuel + 2))
      { r with tokens := entries.flatMap Lexer.Entry.tokens ++ [.blockEnd] } =
        some (.mapping (entries.map Lexer.Entry.nodes), { r with tokens := [] }) := by
    rw [map_eq_pure_bind, bind_apply (blockEntries_entries entries fuel r)]
    rfl
  rw [readNode]
  exact bind_apply hentries

namespace Document

/-- The tokens of a mapping are a document of its own. -/
theorem ofTokens?_mappingTokens (entries : List Lexer.Entry) :
    ofTokens? (Lexer.mappingTokens entries) =
      some (.document ⟨.mapping (entries.map Lexer.Entry.nodes), []⟩) := by
  have hlength : 3 * (Lexer.mappingTokens entries).length + 3 =
      entries.length + (11 * entries.length + 6) + 3 := by
    have htokens : (entries.flatMap Lexer.Entry.tokens).length = 4 * entries.length := by
      simp [List.length_flatMap, Lexer.Entry.tokens, Nat.mul_comm]
    simp only [Lexer.mappingTokens, List.length_cons, List.length_append, htokens, List.length_nil]
    omega
  have hroot : readRoot standardHandles (Lexer.mappingTokens entries) =
      some (.mapping (entries.map Lexer.Entry.nodes), ⟨[], standardHandles, [], 0, []⟩) := by
    rw [readRoot, hlength]
    exact readNode_mapping entries _ false ⟨[], standardHandles, [], 0, []⟩
  have hdirectives : directives? false [] (Lexer.mappingTokens entries) =
      some (standardHandles, Lexer.mappingTokens entries) := rfl
  rw [ofTokens?, hdirectives]
  simp only [Lexer.mappingTokens] at hroot ⊢
  simp [hroot, ofReader]

/-- Lines that hold entries, one each, are a mapping. -/
theorem read?_entries {entries : List Lexer.Entry} (h : ∀ e ∈ entries, e.Holds)
    (hne : entries ≠ []) :
    read? (String.ofList (entries.flatMap Lexer.Entry.line)) =
      some (.document ⟨.mapping (entries.map Lexer.Entry.nodes), []⟩) := by
  rw [read?, String.toList_ofList, tokens?_entries h hne, Option.bind_some,
    ofTokens?_mappingTokens]

/-! ## Asking for fields -/

/-- The text of an entry's key, and the node of its value. -/
def field (e : Lexer.Entry) : String × Node := (String.ofList e.key, e.nodes.2)

theorem scalar_of_eq_some {α : Type} (d : Document) {s : Scalar} {meaning? : Scalar → Option α}
    {a : α} (h : meaning? s = some a) : d.scalar (.scalar s) meaning? = pure a := by
  change given (meaning? s) = _
  rw [h]
  rfl

theorem text_scalar (d : Document) (s : Scalar) :
    d.text (.scalar s) = pure (String.ofList s.text) := d.scalar_of_eq_some rfl

theorem fields_mapping (d : Document) (entries : List Lexer.Entry) :
    d.fields (.mapping (entries.map Lexer.Entry.nodes)) = pure (entries.map field) := by
  change ((entries.map Lexer.Entry.nodes).mapM fun entry => do
    return (← d.text entry.1, entry.2) : Reading _) = _
  rw [List.mapM_map, ← List.mapM_pure]
  rfl

theorem filter_key {fields : List (String × Node)} (hkeys : (fields.map Prod.fst).Nodup)
    {f : String × Node} (hf : f ∈ fields) : fields.filter (·.1 = f.1) = [f] := by
  induction fields with
  | nil => exact absurd hf List.not_mem_nil
  | cons g fields ih =>
    rw [List.map_cons, List.nodup_cons] at hkeys
    rcases List.mem_cons.mp hf with rfl | hf
    · have hothers : fields.filter (·.1 = f.1) = [] := by
        rw [List.filter_eq_nil_iff]
        intro g hg heq
        exact hkeys.1 (List.mem_map.mpr ⟨g, hg, by simpa using heq⟩)
      simp [hothers]
    · have hne : g.1 ≠ f.1 := fun heq => hkeys.1 (heq ▸ List.mem_map_of_mem hf)
      simp [hne, ih hkeys.2 hf]

theorem required_eq {fields : List (String × Node)} (hkeys : (fields.map Prod.fst).Nodup)
    {key : String} {n : Node} (h : (key, n) ∈ fields) : required fields key = pure n := by
  rw [required, filter_key hkeys h]

theorem optional_eq {fields : List (String × Node)} (hkeys : (fields.map Prod.fst).Nodup)
    {key : String} {n : Node} (h : (key, n) ∈ fields) : optional fields key = pure (some n) := by
  rw [optional, filter_key hkeys h]

end Document

end MipsMemory.Yaml
