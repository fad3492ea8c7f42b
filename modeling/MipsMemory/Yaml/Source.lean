/-!
The unread part of a text with its place, and the character classes of YAML. A line ends at a line
feed, a carriage return, both in that order, or one of the three breaks beyond ASCII.
-/

namespace MipsMemory.Yaml

/-- A space or a tab. -/
def isBlank (c : Char) : Bool := c == ' ' || c == '\t'

/-- One of the characters that end a line. -/
def isBreak (c : Char) : Bool :=
  c == '\n' || c == '\r' || c == '\x85' || c == '\u2028' || c == '\u2029'

/-- How a break reads inside a scalar: the two Unicode separators stay, any other is a line feed. -/
def breakText (c : Char) : Char :=
  if c == '\u2028' || c == '\u2029' then c else '\n'

/-- Nothing follows, or a blank or a break does. -/
def atWordEnd : List Char → Bool
  | [] => true
  | c :: _ => isBlank c || isBreak c

/-- What a text may consist of: no controls but tab and the breaks, no surrogates, nothing at the
end of the basic plane. -/
def isAllowed (c : Char) : Bool :=
  let n := c.toNat
  n == 0x09 || n == 0x0a || n == 0x0d || n == 0x85 || (0x20 ≤ n && n ≤ 0x7e) ||
    (0xa0 ≤ n && n ≤ 0xd7ff) || (0xe000 ≤ n && n ≤ 0xfffd) || 0x10000 ≤ n

/-- How many bytes a text takes. -/
def byteCount : List Char → Nat
  | [] => 0
  | c :: cs => c.utf8Size + byteCount cs

/-- The unread part of a text. The index counts bytes, the column characters; all count from zero.
-/
structure Source where
  rest : List Char
  index : Nat
  line : Nat
  column : Nat
  deriving DecidableEq, Repr

namespace Source

/-- The whole text, at its start. -/
def ofText (cs : List Char) : Source := ⟨cs, 0, 0, 0⟩

/-- Passes over characters of one line. -/
def skip (s : Source) (n : Nat) : Source :=
  { s with
    rest := s.rest.drop n
    index := s.index + byteCount (s.rest.take n)
    column := s.column + n }

/-- Passes over all characters of the line up to the given rest. -/
def skipTo (s : Source) (rest : List Char) : Source :=
  s.skip (s.rest.length - rest.length)

/-- Passes over the break at hand, if there is one, and answers how it reads. -/
def skipBreak (s : Source) : List Char × Source :=
  match s.rest with
  | '\r' :: '\n' :: r => (['\n'], ⟨r, s.index + 2, s.line + 1, 0⟩)
  | c :: r =>
    if isBreak c then ([breakText c], ⟨r, s.index + c.utf8Size, s.line + 1, 0⟩) else ([], s)
  | [] => ([], s)

/-- Passes over blanks, a comment, and the break that must come next unless the text ends. -/
def finishLine? (s : Source) : Option Source :=
  let s := s.skip (s.rest.takeWhile isBlank).length
  let comment := if s.rest.head? == some '#' then s.rest.takeWhile (!isBreak ·) else []
  let s := s.skip comment.length
  if s.rest.head?.all isBreak then some s.skipBreak.2 else none

/-- Starts with a word of three of the same character. -/
def tripled (c : Char) : List Char → Bool
  | x :: y :: z :: r => x == c && y == c && z == c && atWordEnd r
  | _ => false

/-- At a line that starts or ends a document. -/
def atMark (s : Source) : Bool :=
  s.column == 0 && (tripled '-' s.rest || tripled '.' s.rest)

end Source

/-- The blanks and breaks between two words of a scalar. Blanks after a break are not kept. -/
structure Gap where
  blanks : List Char
  breaks : List Char
  deriving DecidableEq, Repr

/-- What a gap reads as: a single line feed is folded to a space, the first of several is dropped.
-/
def Gap.text (g : Gap) : List Char :=
  match g.breaks with
  | [] => g.blanks
  | ['\n'] => [' ']
  | '\n' :: more => more
  | breaks => breaks

/-- The gap leads to another line. -/
def Gap.crosses (g : Gap) : Bool := !g.breaks.isEmpty

/-- Reads a gap from a place on, given by its counts; `crossed` tells whether a break was passed. -/
def gapFrom (crossed : Bool) (indent index line column : Nat) :
    List Char → Option (Gap × Source)
  | [] => some (⟨[], []⟩, ⟨[], index, line, column⟩)
  | '\r' :: '\n' :: r =>
    (gapFrom true indent (index + 2) (line + 1) 0 r).map fun (g, s) =>
      (⟨[], '\n' :: g.breaks⟩, s)
  | c :: r =>
    if isBreak c then
      (gapFrom true indent (index + c.utf8Size) (line + 1) 0 r).map fun (g, s) =>
        (⟨[], breakText c :: g.breaks⟩, s)
    else if isBlank c then
      if crossed && c == '\t' && column < indent then none
      else
        (gapFrom crossed indent (index + c.utf8Size) line (column + 1) r).map fun (g, s) =>
          (if crossed then g else { g with blanks := c :: g.blanks }, s)
    else some (⟨[], []⟩, ⟨c :: r, index, line, column⟩)

/-- Reads a gap, as if after a break if `crossed`. No tab may stand left of the indentation. -/
def Source.gap (s : Source) (crossed : Bool) (indent : Nat) : Option (Gap × Source) :=
  gapFrom crossed indent s.index s.line s.column s.rest

end MipsMemory.Yaml
