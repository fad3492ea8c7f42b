import MipsMemory.Yaml.Token

/-!
Trees of scalars, sequences and mappings, read from tokens by recursive descent. Every call passes
on less fuel, and of three calls in a row at least one takes a token, so three times as much fuel
as there are tokens suffices.
-/

namespace MipsMemory.Yaml

/-- A tree of scalars, sequences and mappings; an alias is kept as the number of its anchor. -/
inductive Node where
  | scalar (s : Scalar)
  | sequence (items : List Node)
  | mapping (entries : List (Node × Node))
  | reference (anchor : Nat)

namespace Node

/-- The node that stands where nothing is written. -/
def empty : Node := .scalar .empty

mutual

/-- How much there is to a tree: a scalar or an alias is one mark, and a collection adds a start and
an end to its contents. -/
def size : Node → Nat
  | .scalar _ | .reference _ => 1
  | .sequence items => 2 + sizeOfItems items
  | .mapping entries => 2 + sizeOfEntries entries

/-- The size of the items of a sequence. -/
def sizeOfItems : List Node → Nat
  | [] => 0
  | item :: items => item.size + sizeOfItems items

/-- The size of the keys and values of a mapping. -/
def sizeOfEntries : List (Node × Node) → Nat
  | [] => 0
  | (key, value) :: entries => key.size + value.size + sizeOfEntries entries

end

theorem size_pos (n : Node) : 0 < n.size := by
  cases n <;> simp only [size] <;> omega

end Node

/-- A node with an anchor, and how many anchored nodes began before it. -/
structure Anchored where
  anchor : Nat
  began : Nat
  node : Node

/-- The tokens still to be read, what the handles of tags stand for, and the anchors met. An
anchor's number is the count of distinct names before it, so a number can come to be held by several
nodes. -/
structure Reader where
  tokens : List Token
  handles : List (List Char × Tag)
  names : List (List Char × Nat)
  began : Nat
  anchored : List Anchored

/-- A step of the reading, which may fail. -/
abbrev Read := StateT Reader Option

namespace Read

/-- The token at hand, if there is one. -/
def peek : Read (Option Token) := fun r => some (r.tokens.head?, r)

/-- Passes over the token at hand. -/
def drop : Read Unit := fun r => some ((), { r with tokens := r.tokens.tail })

/-- Gives up: the tokens make no tree. -/
def fail {α : Type} : Read α := fun _ => none

/-- The token at hand is one of the given. -/
def at? (ts : List Token) : Read Bool := do
  let t ← peek
  return t.any ts.contains

/-- Takes the token at hand if it is the given one. -/
def take? (t : Token) : Read Bool := do
  if ← at? [t] then drop; return true
  else return false

/-- Takes the comma that every item of a flow collection but the first must have before it. -/
def comma? (first : Bool) : Read Bool :=
  if first then pure true else take? .flowEntry

/-- Numbers an anchor before its node is read. -/
def begin? (name : Option (List Char)) : Read (Option (Nat × Nat)) := fun r =>
  match name with
  | none => some (none, r)
  | some name =>
    let anchor := r.names.length
    let names := (name, anchor) :: r.names.filter (·.1 ≠ name)
    some (some (anchor, r.began), { r with names, began := r.began + 1 })

/-- Notes the node of an anchor once it is read. -/
def settle (place : Option (Nat × Nat)) (node : Node) : Read Node := fun r =>
  match place with
  | none => some (node, r)
  | some (anchor, began) => some (node, { r with anchored := ⟨anchor, began, node⟩ :: r.anchored })

/-- The node an alias refers to, by the number of its anchor. -/
def reference (name : List Char) : Read Node := fun r =>
  (r.names.lookup name).map fun anchor => (.reference anchor, r)

/-- A tag in full; its handle must be known. -/
def fullTag (handle : Option (List Char)) (suffix : Tag) : Read Tag := fun r =>
  match handle with
  | none => some (suffix, r)
  | some name => (r.handles.lookup name).map fun stem => (stem ++ suffix, r)

/-- Takes an anchor. -/
def anchor? : Read (Option (List Char)) := do
  match ← peek with
  | some (.anchor name) => drop; return some name
  | _ => return none

/-- Takes a tag. -/
def tag? : Read (Option Tag) := do
  match ← peek with
  | some (.tag handle suffix) => drop; return some (← fullTag handle suffix)
  | _ => return none

/-- The anchor and the tag of a node, in either order. -/
def properties : Read (Option (List Char) × Option Tag) := do
  match ← anchor? with
  | some name => return (some name, ← tag?)
  | none =>
    match ← tag? with
    | some t => return (← anchor?, some t)
    | none => return (none, none)

end Read

open Read

/-- What stands for a node without content: an anchor or a tag must announce it. -/
def bareNode (anchor : Option (List Char)) (tag : Option Tag) : Read Node :=
  if anchor.isSome || tag.isSome then return .scalar ⟨[], .plain, tag⟩ else fail

mutual

/-- Reads a node. Block collections are read only if `block`, and a sequence may stand at the
indentation of the mapping around it only if `indentless`. -/
def readNode (fuel : Nat) (block indentless : Bool) : Read Node :=
  match fuel with
  | 0 => fail
  | fuel + 1 => do
    match ← peek with
    | some (.reference name) => drop; Read.reference name
    | _ =>
      let (anchor, tag) ← properties
      let place ← begin? anchor
      let node ← match ← peek, block, indentless with
        | some (.scalar text style), _, _ => drop; pure (.scalar ⟨text, style, tag⟩)
        | some .blockEntry, _, true => .sequence <$> indentlessItems fuel
        | some .flowSequenceStart, _, _ => drop; .sequence <$> flowItems fuel true
        | some .flowMappingStart, _, _ => drop; .mapping <$> flowEntries fuel true
        | some .blockSequenceStart, true, _ => drop; .sequence <$> blockItems fuel
        | some .blockMappingStart, true, _ => drop; .mapping <$> blockEntries fuel
        | _, _, _ => bareNode anchor tag
      settle place node

/-- Reads a node, or nothing in front of one of the given tokens. -/
def readUnless (fuel : Nat) (stops : List Token) (block indentless : Bool) : Read Node :=
  match fuel with
  | 0 => fail
  | fuel + 1 => do
    if ← at? stops then return .empty else readNode fuel block indentless

/-- Reads the items of a block sequence up to its end. -/
def blockItems (fuel : Nat) : Read (List Node) :=
  match fuel with
  | 0 => fail
  | fuel + 1 => do
    if ← take? .blockEntry then
      let item ← readUnless fuel [.blockEntry, .blockEnd] true false
      return item :: (← blockItems fuel)
    else if ← take? .blockEnd then return []
    else fail

/-- Reads items for as long as there are any. -/
def indentlessItems (fuel : Nat) : Read (List Node) :=
  match fuel with
  | 0 => fail
  | fuel + 1 => do
    if ← take? .blockEntry then
      let item ← readUnless fuel [.blockEntry, .key, .value, .blockEnd] true false
      return item :: (← indentlessItems fuel)
    else return []

/-- Reads the entries of a block mapping up to its end. -/
def blockEntries (fuel : Nat) : Read (List (Node × Node)) :=
  match fuel with
  | 0 => fail
  | fuel + 1 => do
    if ← take? .key then
      let key ← readUnless fuel [.key, .value, .blockEnd] true true
      let value ←
        if ← take? .value then readUnless fuel [.key, .value, .blockEnd] true true
        else pure .empty
      return (key, value) :: (← blockEntries fuel)
    else if ← take? .blockEnd then return []
    else fail

/-- Reads the items of a flow sequence up to its bracket. -/
def flowItems (fuel : Nat) (first : Bool) : Read (List Node) :=
  match fuel with
  | 0 => fail
  | fuel + 1 => do
    if ← take? .flowSequenceEnd then return []
    else if !(← comma? first) then fail
    else if ← take? .key then
      let item ← flowPair fuel
      return item :: (← flowItems fuel false)
    else if ← take? .flowSequenceEnd then return []
    else
      let item ← readNode fuel false false
      return item :: (← flowItems fuel false)

/-- Reads a single entry that is an item of a flow sequence. An empty key takes the token after it
along. -/
def flowPair (fuel : Nat) : Read Node :=
  match fuel with
  | 0 => fail
  | fuel + 1 => do
    let key ←
      if ← at? [.value, .flowEntry, .flowSequenceEnd] then drop; pure .empty
      else readNode fuel false false
    let value ←
      if ← take? .value then readUnless fuel [.flowEntry, .flowSequenceEnd] false false
      else pure .empty
    return .mapping [(key, value)]

/-- Reads the entries of a flow mapping up to its brace. -/
def flowEntries (fuel : Nat) (first : Bool) : Read (List (Node × Node)) :=
  match fuel with
  | 0 => fail
  | fuel + 1 => do
    if ← take? .flowMappingEnd then return []
    else if !(← comma? first) then fail
    else if ← take? .key then
      let key ← readUnless fuel [.value, .flowEntry, .flowMappingEnd] false false
      let value ←
        if ← take? .value then readUnless fuel [.flowEntry, .flowMappingEnd] false false
        else pure .empty
      return (key, value) :: (← flowEntries fuel false)
    else if ← take? .flowMappingEnd then return []
    else
      let key ← readNode fuel false false
      return (key, .empty) :: (← flowEntries fuel false)

end

end MipsMemory.Yaml
