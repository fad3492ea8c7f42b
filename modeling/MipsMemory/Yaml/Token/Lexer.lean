import MipsMemory.Yaml.Scalar.Block
import MipsMemory.Yaml.Scalar.Plain
import MipsMemory.Yaml.Scalar.Quoted
import MipsMemory.Yaml.Token
import MipsMemory.Yaml.Token.Directive
import MipsMemory.Yaml.Token.Name

/-!
From text to tokens. A key is only known as one when its colon comes, so the token that announces it
is put in front of what has been read since.
-/

namespace MipsMemory.Yaml

/-- A place where a key without a question mark may have begun. -/
structure KeyStart where
  required : Bool
  tokens : Nat
  index : Nat
  line : Nat
  column : Nat
  deriving DecidableEq, Repr

/-- A text read so far. Tokens are kept latest first, and so are the columns of the open block
collections and the key starts of the flow collections around the place. -/
structure Lexer where
  source : Source
  tokens : List Token
  count : Nat
  indents : List Nat
  keyStart : Option KeyStart
  outerKeys : List (Option KeyStart)
  keyAllowed : Bool

namespace Lexer

/-- The whole text, nothing read yet. -/
def ofText (text : List Char) : Lexer :=
  ⟨.ofText text, [], 0, [], none, [], true⟩

/-- Inside a flow collection. -/
def inFlow (l : Lexer) : Bool := !l.outerKeys.isEmpty

/-- The least column that is inside the innermost block collection. -/
def innerColumn (l : Lexer) : Nat :=
  match l.indents with
  | [] => 0
  | column :: _ => column + 1

/-- Adds a token at the end. -/
def push (l : Lexer) (t : Token) : Lexer :=
  { l with tokens := t :: l.tokens, count := l.count + 1 }

/-- Puts a token where there were `place` tokens before. -/
def insertAt (l : Lexer) (place : Nat) (t : Token) : Lexer :=
  let later := l.count - place
  { l with tokens := l.tokens.take later ++ t :: l.tokens.drop later, count := l.count + 1 }

/-- Says whether a key may begin here. -/
def allow (l : Lexer) (allowed : Bool) : Lexer := { l with keyAllowed := allowed }

/-- Closes the block collections whose column is not below a bound. -/
def close (l : Lexer) (bound : Nat) : Lexer :=
  let closed := (l.indents.takeWhile (bound ≤ ·)).length
  { l with
    tokens := List.replicate closed .blockEnd ++ l.tokens
    count := l.count + closed
    indents := l.indents.drop closed }

/-- Closes what lies to the right of a column; flow collections do not heed indentation. -/
def unroll (l : Lexer) (column : Nat) : Lexer :=
  if l.inFlow then l else l.close (column + 1)

/-- Closes all block collections, unless a flow collection is open. -/
def closeAll (l : Lexer) : Lexer := if l.inFlow then l else l.close 0

/-- Opens a block collection at a column to the right of the innermost one; its first token goes
where there were `place` tokens before. -/
def roll (l : Lexer) (column place : Nat) (first : Token) : Lexer :=
  if l.inFlow || column < l.innerColumn then l
  else { l.insertAt place first with indents := column :: l.indents }

/-- Gives up the key start of this level; a required key must not be given up. -/
def dropKey (l : Lexer) : Option Lexer :=
  if l.keyStart.any KeyStart.required then none else some { l with keyStart := none }

/-- Notes that a key may begin here. One is required where only a key can stand. -/
def saveKey (l : Lexer) : Option Lexer :=
  if !l.keyAllowed then some l
  else do
    let l ← l.dropKey
    let required := !l.inFlow && l.indents.head? == some l.source.column
    return { l with
      keyStart := some ⟨required, l.count, l.source.index, l.source.line, l.source.column⟩ }

/-- A key stays on one line and within 1024 bytes. -/
def isStale (l : Lexer) (k : KeyStart) : Bool :=
  k.line < l.source.line || k.index + 1024 < l.source.index

/-- Gives up the key starts that have gone stale on any level; a required one must not. -/
def dropStaleKeys (l : Lexer) : Option Lexer :=
  let keep (k : Option KeyStart) : Option KeyStart := k.filter (!l.isStale ·)
  if (l.keyStart :: l.outerKeys).any fun k => k.any fun k => l.isStale k && k.required then none
  else some { l with keyStart := keep l.keyStart, outerKeys := l.outerKeys.map keep }

/-- Passes over blanks, comments, breaks, and a byte order mark that starts a line. In block context
a key may begin on a new line, and a tab may not stand where one may begin. -/
def spaceFrom (flow allowed comment : Bool) (index line column : Nat) :
    List Char → Source × Bool
  | [] => (⟨[], index, line, column⟩, allowed)
  | '\r' :: '\n' :: r => spaceFrom flow (allowed || !flow) false (index + 2) (line + 1) 0 r
  | c :: r =>
    let after := index + c.utf8Size
    if isBreak c then spaceFrom flow (allowed || !flow) false after (line + 1) 0 r
    else if comment || c == ' ' || (c == '\t' && (flow || !allowed)) then
      spaceFrom flow allowed comment after line (column + 1) r
    else if c == '\ufeff' && column == 0 then
      spaceFrom flow allowed comment after line (column + 1) r
    else if c == '#' then spaceFrom flow allowed true after line (column + 1) r
    else (⟨c :: r, index, line, column⟩, allowed)

/-- Passes over what stands between tokens. -/
def skipSpace (l : Lexer) : Lexer :=
  let s := l.source
  let (source, keyAllowed) := spaceFrom l.inFlow l.keyAllowed false s.index s.line s.column s.rest
  { l with source, keyAllowed }

/-! ### One kind of token each -/

/-- Passes over characters of one line. -/
def skip (l : Lexer) (n : Nat) : Lexer := { l with source := l.source.skip n }

/-- A directive, which closes everything and takes its whole line. -/
def directive (l : Lexer) : Option Lexer := do
  let l ← l.closeAll.dropKey
  let (t, rest) ← directive? l.source.rest
  let source ← (l.source.skipTo rest).finishLine?
  return { (l.allow false).push t with source }

/-- A mark of a document's start or end. -/
def documentMark (l : Lexer) (t : Token) : Option Lexer :=
  l.closeAll.dropKey.map fun l => ((l.allow false).skip 3).push t

/-- The start of a flow collection, which may itself be a key. -/
def flowStart (l : Lexer) (t : Token) : Option Lexer :=
  l.saveKey.map fun l =>
    { ((l.allow true).skip 1).push t with keyStart := none, outerKeys := l.keyStart :: l.outerKeys }

/-- The end of a flow collection; the key start around it comes back. -/
def flowEnd (l : Lexer) (t : Token) : Option Lexer :=
  l.dropKey.map fun l =>
    let l := ((l.allow false).skip 1).push t
    match l.outerKeys with
    | [] => l
    | k :: outer => { l with keyStart := k, outerKeys := outer }

/-- A comma in a flow collection. -/
def flowEntry (l : Lexer) : Option Lexer :=
  l.dropKey.map fun l => ((l.allow true).skip 1).push .flowEntry

/-- An indicator of a block collection, which it opens if it is the first in its column. -/
def indicator (l : Lexer) (t first : Token) (allowed : Bool) : Option Lexer :=
  if !l.inFlow && !l.keyAllowed then none
  else
    (l.roll l.source.column l.count first).dropKey.map fun l => ((l.allow allowed).skip 1).push t

/-- A dash in front of an item. -/
def blockEntry (l : Lexer) : Option Lexer :=
  l.indicator .blockEntry .blockSequenceStart true

/-- A question mark in front of a key. -/
def key (l : Lexer) : Option Lexer :=
  l.indicator .key .blockMappingStart (!l.inFlow)

/-- A colon turns what has been read since the key start into a key; without a key start it belongs
to a question mark or to an empty key. -/
def value (l : Lexer) : Option Lexer :=
  match l.keyStart with
  | some k =>
    let l := (l.insertAt k.tokens .key).roll k.column k.tokens .blockMappingStart
    some (({ l with keyStart := none, keyAllowed := false }.skip 1).push .value)
  | none =>
    if !l.inFlow && !l.keyAllowed then none
    else
      let l := l.roll l.source.column l.count .blockMappingStart
      some (((l.allow (!l.inFlow)).skip 1).push .value)

/-- A token made of a mark and a name. -/
def named (l : Lexer) (token? : List Char → Option (Token × List Char)) : Option Lexer := do
  let l ← l.saveKey
  let (t, rest) ← token? l.source.rest
  return { (l.allow false).push t with source := l.source.skipTo rest }

/-- An anchor or an alias. -/
def anchor (l : Lexer) (t : List Char → Token) : Option Lexer :=
  l.named fun cs => (anchorName? (cs.drop 1)).map fun (name, rest) => (t name, rest)

/-- A tag, which must end its word. -/
def tag (l : Lexer) : Option Lexer := do
  let l ← l.named tag?
  if atWordEnd l.source.rest || (l.inFlow && l.source.rest.head? == some ',') then some l else none

/-- A block scalar, which cannot be a key. -/
def block (l : Lexer) (literal : Bool) : Option Lexer := do
  let l ← l.dropKey
  let (text, source) ← l.source.block literal (l.indents.headD 0) l.innerColumn
  return { (l.allow true).push (.scalar text (if literal then .literal else .folded)) with source }

/-- A quoted scalar, which may be a key. -/
def quoted (l : Lexer) (double : Bool) : Option Lexer := do
  let l ← l.saveKey
  let (text, source) ← l.source.quoted double
  let style := if double then Style.doubleQuoted else .singleQuoted
  return { (l.allow false).push (.scalar text style) with source }

/-- A plain scalar, which may be a key unless it ran over a line. -/
def plain (l : Lexer) : Option Lexer := do
  let l ← l.saveKey
  let p ← l.source.plain l.inFlow l.innerColumn
  return { (l.allow p.crossed).push (.scalar p.text .plain) with source := p.source }

/-- Reads the token at hand. -/
def next (l : Lexer) : Option Lexer :=
  match l.source.rest with
  | [] => none
  | c :: r =>
    if c == '%' && l.source.column == 0 then l.directive
    else if l.source.atMark then l.documentMark (if c == '-' then .documentStart else .documentEnd)
    else if c == '[' then l.flowStart .flowSequenceStart
    else if c == '\x7b' then l.flowStart .flowMappingStart
    else if c == ']' then l.flowEnd .flowSequenceEnd
    else if c == '\x7d' then l.flowEnd .flowMappingEnd
    else if c == ',' then l.flowEntry
    else if c == '-' && atWordEnd r then l.blockEntry
    else if c == '?' && (l.inFlow || atWordEnd r) then l.key
    else if c == ':' && (l.inFlow || atWordEnd r) then l.value
    else if c == '*' then l.anchor .reference
    else if c == '&' then l.anchor .anchor
    else if c == '!' then l.tag
    else if c == '|' && !l.inFlow then l.block true
    else if c == '>' && !l.inFlow then l.block false
    else if c == '\'' then l.quoted false
    else if c == '"' then l.quoted true
    else if startsPlain l.inFlow (c :: r) then l.plain
    else none

/-- Passes over space and closes what is not indented far enough any more. -/
def prepare (l : Lexer) : Option Lexer :=
  l.skipSpace.dropStaleKeys.map fun l => l.unroll l.source.column

/-- Closes what is open at the end of the text; a required key must have come to its colon. -/
def finish (l : Lexer) : Option (List Token) :=
  l.closeAll.dropKey.map fun l => l.tokens.reverse

/-- Reads tokens to the end of the text, in at most `fuel` steps. -/
def run (fuel : Nat) (l : Lexer) : Option (List Token) :=
  match fuel with
  | 0 => none
  | fuel + 1 => do
    let l ← l.prepare
    if l.source.rest.isEmpty then l.finish else (← l.next).run fuel

end Lexer

/-- The tokens of a text, if it has any meaning at all. Each step takes a character, and one more
comes to the end. -/
def tokens? (text : List Char) : Option (List Token) :=
  if text.all isAllowed then (Lexer.ofText text).run (text.length + 1) else none

end MipsMemory.Yaml
