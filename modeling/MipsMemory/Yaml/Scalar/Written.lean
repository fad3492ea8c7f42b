import MipsMemory.Yaml.Scalar
import MipsMemory.Yaml.Source

/-!
Writing a text as the value of a key. The plainest style that reads back is taken: plain, single
quotes, double quotes; a text with line feeds becomes a literal block.
-/

namespace MipsMemory.Yaml.Written

/-- Shows as itself in a text file; blanks other than the space do not. -/
def isPrintable (c : Char) : Bool :=
  let n := c.toNat
  n == 0x0a || (0x20 ≤ n && n ≤ 0x7e) || (0xa0 ≤ n && n ≤ 0xfffd && n != 0xfeff) || 0x10000 ≤ n

/-- Reads as something else than text when it is plain. -/
def isAmbiguous (cs : List Char) : Bool :=
  Scalar.plainValue cs != .text cs || Scalar.hasLeadingZero cs

/-- Means something else than itself in front of any scalar. -/
def isIndicator (c : Char) : Bool :=
  "#,[]\x7b\x7d&*!|>\x27\"%@".toList.contains c || c.toNat == 0x60

/-- A first character that means something else in front of a plain scalar. -/
def startsSpecially : List Char → Bool
  | [] => false
  | c :: r =>
    isIndicator c || ((c == '?' || c == ':' || c == '-') && atWordEnd r) ||
      ['-', '-', '-'].isPrefixOf (c :: r) || ['.', '.', '.'].isPrefixOf (c :: r)

/-- A colon before a blank or a hash sign after one. -/
def hasInnerIndicator : List Char → Bool
  | a :: b :: r =>
    (b == ':' && atWordEnd r) || (b == '#' && (isBlank a || isBreak a)) ||
      hasInnerIndicator (b :: r)
  | _ => false

/-- Two neighbours of the text, in this order. -/
def hasPair (p q : Char → Bool) : List Char → Bool
  | a :: b :: r => (p a && q b) || hasPair p q (b :: r)
  | _ => false

/-- The space; a tab is none. -/
def isSpace (c : Char) : Bool := c == ' '

/-- Holds a character that no style but double quotes can show, or a space before a break. -/
def isSpecial (cs : List Char) : Bool :=
  cs.any (!isPrintable ·) || hasPair isSpace isBreak cs

/-- Reads back as itself without quotes. -/
def mayBePlain (cs : List Char) : Bool :=
  !(startsSpecially cs || hasInnerIndicator cs || isSpecial cs || cs.any isBreak ||
    cs.head?.any isSpace || cs.getLast?.any isSpace)

/-- Reads back as itself between single quotes. -/
def mayBeSingleQuoted (cs : List Char) : Bool :=
  !(isSpecial cs || hasPair isBreak isSpace cs)

/-- Reads back as itself in a literal block. -/
def mayBeBlock (cs : List Char) : Bool :=
  !(isSpecial cs || cs.getLast?.any isSpace)

/-- The style a text is written in. -/
def style (cs : List Char) : Style :=
  if cs.contains '\n' then if mayBeBlock cs then .literal else .doubleQuoted
  else if mayBePlain cs && !isAmbiguous cs then .plain
  else if mayBeSingleQuoted cs then .singleQuoted
  else .doubleQuoted

/-- The indentation of the lines below a key. -/
def indentation : List Char := [' ', ' ']

/-- Doubles the quotes; what follows a break is indented. -/
def singleQuoted (broken : Bool) : List Char → List Char
  | [] => if broken then indentation else []
  | c :: r =>
    if isBreak c then c :: singleQuoted true r
    else
      let text := if c == '\'' then ['\'', '\''] else [c]
      (if broken then indentation else []) ++ text ++ singleQuoted false r

/-- The upper-case hexadecimal digits of a character code. -/
def hexCode (length : Nat) (c : Char) : List Char :=
  (Numeral.hexDigits length c.toNat).map Char.toUpper

/-- How a character is written between double quotes. -/
def escape (c : Char) : List Char :=
  match c with
  | '\x00' => ['\\', '0']
  | '\x07' => ['\\', 'a']
  | '\x08' => ['\\', 'b']
  | '\t' => ['\\', 't']
  | '\n' => ['\\', 'n']
  | '\x0b' => ['\\', 'v']
  | '\x0c' => ['\\', 'f']
  | '\r' => ['\\', 'r']
  | '\x1b' => ['\\', 'e']
  | '"' => ['\\', '"']
  | '\\' => ['\\', '\\']
  | '\x85' => ['\\', 'N']
  | '\u2028' => ['\\', 'L']
  | '\u2029' => ['\\', 'P']
  | c =>
    if isPrintable c then [c]
    else if c.toNat ≤ 0xff then '\\' :: 'x' :: hexCode 2 c
    else if c.toNat ≤ 0xffff then '\\' :: 'u' :: hexCode 4 c
    else '\\' :: 'U' :: hexCode 8 c

/-- A header names the indentation if the text does not show it, and says what becomes of the breaks
at the end. -/
def blockHeader (cs : List Char) : List Char :=
  let indent := if cs.head?.any fun c => isSpace c || isBreak c then ['2'] else []
  let chomp := match cs.reverse with
    | [] => ['-']
    | last :: before =>
      if !isBreak last then ['-']
      else if before.head?.all isBreak then ['+']
      else []
  '|' :: indent ++ chomp ++ ['\n']

/-- The lines of a block; empty ones are not indented. -/
def blockLines (broken : Bool) : List Char → List Char
  | [] => []
  | c :: r =>
    if isBreak c then c :: blockLines true r
    else (if broken then indentation else []) ++ c :: blockLines false r

/-- Ends the last line, unless the text did so itself. -/
def endLine (cs : List Char) : List Char :=
  if cs.getLast?.any isBreak then cs else cs ++ ['\n']

/-- The text of a value with the end of its line. -/
def value (cs : List Char) : List Char :=
  match style cs with
  | .plain => cs ++ ['\n']
  | .singleQuoted => '\'' :: singleQuoted false cs ++ ['\'', '\n']
  | .literal | .folded => endLine (blockHeader cs ++ blockLines true cs)
  | .doubleQuoted => '"' :: cs.flatMap escape ++ ['"', '\n']

/-- The lines of an entry of a mapping. -/
def entry (key : String) (text : List Char) : List Char :=
  key.toList ++ ':' :: ' ' :: value text

end MipsMemory.Yaml.Written
