import MipsMemory.Yaml.Node
import MipsMemory.Yaml.Token.Lexer

/-!
Whole documents, and what is asked of their nodes. An alias stands for the node of its anchor; to
keep a short document from standing for an endless one, only so many aliases are followed. Main
statement: only an alias draws on what may be followed.
-/

namespace MipsMemory.Yaml

/-- A tree with the anchored nodes that its aliases stand for. -/
structure Document where
  root : Node
  anchored : List Anchored

namespace Document

/-- The contents of a text: nothing at all, or a single document. -/
inductive Contents where
  | nothing
  | document (d : Document)

/-- Nothing may follow a document but marks of its end. -/
def ofReader : Option (Node × Reader) → Option Contents
  | some (root, r) =>
    if r.tokens.all (· == .documentEnd) then some (.document ⟨root, r.anchored⟩) else none
  | none => none

/-- The handles every document has. -/
def standardHandles : List (List Char × Tag) := [(['!'], Tag.lone), (['!', '!'], Tag.coreStem)]

/-- What handles stand for after the directives at hand, and the tokens after those. There may be
one version, which must be known, and one meaning for each handle; it comes before the standard one.
-/
def directives? (versioned : Bool) (handles : List (List Char × Tag)) :
    List Token → Option (List (List Char × Tag) × List Token)
  | .version major minor :: r =>
    if versioned || major != 1 || (minor != 1 && minor != 2) then none
    else directives? true handles r
  | .handle name stem :: r =>
    if (handles.lookup name).isSome then none else directives? versioned ((name, stem) :: handles) r
  | r => some (handles ++ standardHandles, r)

/-- Reads a tree; there is fuel enough for every token. -/
def readRoot (handles : List (List Char × Tag)) (tokens : List Token) : Option (Node × Reader) :=
  readNode (3 * tokens.length + 3) true false ⟨tokens, handles, [], 0, []⟩

/-- Directives must come before a mark of the document's start. -/
def ofTokens? (tokens : List Token) : Option Contents :=
  match directives? false [] tokens with
  | none => none
  | some (handles, .documentStart :: rest) =>
    if rest.head?.all fun t => t == .documentStart || t == .documentEnd then
      ofReader (some (.empty, ⟨rest, handles, [], 0, []⟩))
    else ofReader (readRoot handles rest)
  | some (handles, rest) =>
    if rest.length < tokens.length then none
    else if rest.isEmpty then some .nothing
    else ofReader (readRoot handles rest)

/-- Reads a text. -/
def read? (text : String) : Option Contents :=
  (tokens? text.toList).bind ofTokens?

/-- The node an anchor's number stands for: of those that hold it the last to begin. -/
def holder? (d : Document) (anchor : Nat) : Option Node :=
  let holders := d.anchored.filter (·.anchor = anchor)
  let last := holders.foldl (fun n a => max n a.began) 0
  (holders.find? (·.began = last)).map Anchored.node

/-- A reading of a document's nodes; its state is the number of aliases it may still follow. -/
abbrev Reading := StateT Nat Option

/-- Reads the root. A hundred aliases may be followed for each mark of the tree. -/
def decode? {α : Type} (d : Document) (reading : Node → Reading α) : Option α :=
  (reading d.root |>.run (100 * d.root.size)).map Prod.fst

/-- Stops a reading unless there is a value. -/
def given {α : Type} (value : Option α) : Reading α := fun left => value.map fun a => (a, left)

/-- The node itself, or the one an alias stands for. -/
def resolve (d : Document) : Node → Reading Node
  | .reference anchor => fun
    | 0 => none
    | left + 1 => (d.holder? anchor).map fun n => (n, left)
  | n => pure n

theorem resolve_of_ne_reference (d : Document) {n : Node} (h : ∀ anchor, n ≠ .reference anchor) :
    d.resolve n = pure n := by
  cases n with
  | reference anchor => exact absurd rfl (h anchor)
  | _ => rfl

/-- What a scalar means; it must mean something. -/
def scalar {α : Type} (d : Document) (n : Node) (meaning? : Scalar → Option α) : Reading α := do
  match ← d.resolve n with
  | .scalar s => given (meaning? s)
  | _ => given none

/-- Any scalar's text, as it is written. -/
def text (d : Document) (n : Node) : Reading String :=
  d.scalar n fun s => some (String.ofList s.text)

/-- The items of a sequence; nothing at all is an empty one. -/
def items (d : Document) (n : Node) : Reading (List Node) := do
  match ← d.resolve n with
  | .sequence items => return items
  | .scalar s => if s.isVoid then return [] else given none
  | _ => given none

/-- The entries of a mapping by the texts of their keys; nothing at all is an empty one. -/
def fields (d : Document) (n : Node) : Reading (List (String × Node)) := do
  match ← d.resolve n with
  | .mapping entries => entries.mapM fun (key, value) => return (← d.text key, value)
  | .scalar s => if s.isVoid then return [] else given none
  | _ => given none

/-- The value of a key that is there once. -/
def required (fields : List (String × Node)) (key : String) : Reading Node :=
  match fields.filter (·.1 = key) with
  | [(_, value)] => pure value
  | _ => given none

/-- The value of a key that is there at most once. -/
def optional (fields : List (String × Node)) (key : String) : Reading (Option Node) :=
  match fields.filter (·.1 = key) with
  | [] => pure none
  | [(_, value)] => pure (some value)
  | _ => given none

end Document

end MipsMemory.Yaml
