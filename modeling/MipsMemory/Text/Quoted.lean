import MipsMemory.Text.GraphemeExtend
import MipsMemory.Text.Unprintable

/-!
Text in double quotes. A character that would not show as itself is written as an escape. Main
statement: quoting works character by character.
-/

namespace MipsMemory.Text

/-- Lower-case hexadecimal digits without leading zeros, in braces after a `u`. -/
def codePointEscape (c : Char) : List Char :=
  ['\\', 'u', '\x7b'] ++ Nat.toDigits 16 c.toNat ++ ['\x7d']

/-- How a character is written inside quotes. A single quote needs no escape there. -/
def escape (c : Char) : List Char :=
  match c with
  | '\x00' => ['\\', '0']
  | '\t' => ['\\', 't']
  | '\r' => ['\\', 'r']
  | '\n' => ['\\', 'n']
  | '"' => ['\\', '"']
  | '\\' => ['\\', '\\']
  | c => if isGraphemeExtend c || !isPrintable c then codePointEscape c else [c]

/-- Writes every character for inside quotes. -/
def escapeAll (cs : List Char) : List Char := cs.flatMap escape

theorem escapeAll_append (xs ys : List Char) :
    escapeAll (xs ++ ys) = escapeAll xs ++ escapeAll ys :=
  List.flatMap_append

/-- The text between quotes. -/
def quoted (text : String) : String :=
  "\"" ++ String.ofList (escapeAll text.toList) ++ "\""

end MipsMemory.Text
