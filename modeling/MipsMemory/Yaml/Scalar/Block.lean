import MipsMemory.Yaml.Source

/-!
Block scalars: indented lines, kept as they are or folded. The header may name the indentation and
say what becomes of the breaks at the end.
-/

namespace MipsMemory.Yaml

/-- What becomes of the breaks at the end of a block. -/
inductive Chomp where
  | strip
  | clip
  | keep
  deriving DecidableEq, Repr

/-- What a header says; the indentation is relative and zero if it is not named. -/
structure BlockHeader where
  chomp : Chomp
  indent : Nat
  deriving DecidableEq, Repr

/-- Splits off the mark that says what becomes of the breaks at the end. -/
def chomp? : List Char → Option Chomp × List Char
  | '+' :: r => (some .keep, r)
  | '-' :: r => (some .strip, r)
  | r => (none, r)

/-- A single digit other than zero, if there is a digit; none for a zero. -/
def indent? : List Char → Option (Nat × List Char)
  | '0' :: _ => none
  | c :: r => if c.isDigit then some (c.toNat - '0'.toNat, r) else some (0, c :: r)
  | [] => some (0, [])

/-- The two parts of a header come in either order. -/
def blockHeader? (cs : List Char) : Option (BlockHeader × List Char) :=
  match chomp? cs with
  | (some chomp, r) => (indent? r).map fun (indent, r) => (⟨chomp, indent⟩, r)
  | (none, r) =>
    (indent? r).map fun (indent, r) =>
      if indent = 0 then (⟨.clip, 0⟩, r)
      else
        let (chomp, r) := chomp? r
        (⟨chomp.getD .clip, indent⟩, r)

/-- Empty lines before a line of text, with the widest indentation seen. -/
structure BlockBreaks where
  breaks : List Char
  widest : Nat
  source : Source

/-- Passes over empty lines and the indentation of the next line of text; an indentation of zero is
not settled yet. A tab cannot indent. -/
def breaksFrom (indent widest index line column : Nat) : List Char → Option BlockBreaks
  | [] => some ⟨[], max widest column, ⟨[], index, line, column⟩⟩
  | '\r' :: '\n' :: r =>
    (breaksFrom indent (max widest column) (index + 2) (line + 1) 0 r).map fun b =>
      { b with breaks := '\n' :: b.breaks }
  | c :: r =>
    let indenting := indent == 0 || column < indent
    if indenting && c == ' ' then breaksFrom indent widest (index + c.utf8Size) line (column + 1) r
    else if indenting && c == '\t' then none
    else if isBreak c then
      (breaksFrom indent (max widest column) (index + c.utf8Size) (line + 1) 0 r).map fun b =>
        { b with breaks := breakText c :: b.breaks }
    else some ⟨[], max widest column, ⟨c :: r, index, line, column⟩⟩

/-- Passes over empty lines from here on. -/
def Source.blockBreaks (s : Source) (indent : Nat) : Option BlockBreaks :=
  breaksFrom indent 0 s.index s.line s.column s.rest

/-- What lines of a block came to: their text, the break after the last of them, the breaks of the
empty lines after that, and what follows. -/
structure BlockText where
  text : List Char
  last : List Char
  empties : List Char
  source : Source

/-- What stands between two lines. Folding joins lines of text that do not start with a blank. -/
def lineJoint (literal : Bool) (last empties : List Char) (blankAround : Bool) : List Char :=
  if !literal && last == ['\n'] && !blankAround then if empties.isEmpty then [' '] else empties
  else last ++ empties

/-- Reads lines of text for as long as they are indented far enough. -/
def blockFrom (literal : Bool) (indent : Nat) (last empties : List Char) (blankBefore : Bool)
    (s : Source) : Option BlockText :=
  if s.column != indent || s.rest.isEmpty then some ⟨[], last, empties, s⟩
  else
    let blank := s.rest.head?.any isBlank
    let line := s.rest.takeWhile (!isBreak ·)
    let (eol, next) := (s.skip line.length).skipBreak
    match next.blockBreaks indent with
    | none => none
    | some b =>
      if b.source.rest.length < s.rest.length then
        (blockFrom literal indent eol b.breaks blank b.source).map fun more =>
          { more with
            text := lineJoint literal last empties (blankBefore || blank) ++ line ++ more.text }
      else none
termination_by s.rest.length

/-- Reads a block scalar from its indicator. `least` is the least indentation its lines may have,
`outer` the indentation that a named one adds to. -/
def Source.block (s : Source) (literal : Bool) (outer least : Nat) :
    Option (List Char × Source) := do
  let (header, rest) ← blockHeader? (s.rest.drop 1)
  let begun ← (s.skipTo rest).finishLine?
  let named := if header.indent = 0 then 0 else outer + header.indent
  let leading ← begun.blockBreaks named
  let indent := if named = 0 then max leading.widest (max least 1) else named
  let block ← blockFrom literal indent [] leading.breaks false leading.source
  let tail := match header.chomp with
    | .strip => []
    | .clip => block.last
    | .keep => block.last ++ block.empties
  return (block.text ++ tail, block.source)

end MipsMemory.Yaml
