import MipsMemory.Yaml.Token

/-!
The names in anchors, aliases and tags. Main statement: a lone exclamation mark is a tag in full.
-/

namespace MipsMemory.Yaml

/-- What may stand right after the name of an anchor or an alias. -/
def endsName : List Char → Bool
  | [] => true
  | c :: _ =>
    c == ' ' || c == '\t' || c == '\n' || c == '\r' || c == '\x85' || c == '\u2028' ||
      c == '\u2029' || c == '?' || c == ':' || c == ',' || c == ']' || c == '\x7d' || c == '%' ||
      c == '@' || c.toNat == 0x60

/-- The name of an anchor or an alias, and what follows it. -/
def anchorName? (cs : List Char) : Option (List Char × List Char) :=
  let name := cs.takeWhile isWordChar
  let rest := cs.dropWhile isWordChar
  if !name.isEmpty && endsName rest then some (name, rest) else none

/-- A tag between angle brackets, from the bracket's inside on. It may not be empty. -/
def verbatimTag? (cs : List Char) : Option (Token × List Char) := do
  match ← Tag.read? true 0 cs with
  | (name, '>' :: rest) => if name.isEmpty then none else some (.tag none (Tag.upToZero name), rest)
  | _ => none

/-- A tag from its exclamation mark on, and what follows it. A word between two marks is a handle;
a mark that something follows is one too. -/
def tag? (cs : List Char) : Option (Token × List Char) :=
  match cs.drop 1 with
  | '<' :: r => verbatimTag? r
  | r =>
    match r.dropWhile isWordChar with
    | '!' :: r' => do
      let (suffix, rest) ← Tag.read? false 0 r'
      let handle := '!' :: r.takeWhile isWordChar ++ ['!']
      if suffix.isEmpty then none else some (.tag handle (Tag.upToZero suffix), rest)
    | _ => do
      let (name, rest) ← Tag.read? false 0 r
      let suffix := Tag.upToZero name
      some (if suffix.isEmpty then .tag none Tag.lone else .tag ['!'] suffix, rest)

theorem tag?_lone : tag? ['!'] = some (.tag none Tag.lone, []) := rfl

end MipsMemory.Yaml
