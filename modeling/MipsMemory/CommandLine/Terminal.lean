/-!
Coloured text for a terminal, and text in columns. Colours are written wherever the output goes.
-/

namespace MipsMemory.CommandLine

/-- What a program leaves behind. -/
structure Output where
  exit : Nat
  text : String
  deriving DecidableEq, Repr

/-- The terminal codes that switch an attribute on and off. -/
structure Attribute where
  on : Nat
  off : Nat
  deriving DecidableEq, Repr

namespace Attribute

def red : Attribute := ⟨31, 39⟩
def green : Attribute := ⟨32, 39⟩
def yellow : Attribute := ⟨33, 39⟩
def blue : Attribute := ⟨34, 39⟩
def cyan : Attribute := ⟨36, 39⟩
def bold : Attribute := ⟨1, 22⟩
def underline : Attribute := ⟨4, 24⟩

end Attribute

/-- The sequence that switches a terminal to a numbered attribute. -/
def code (n : Nat) : String := "\x1b[" ++ n.repr ++ "m"

/-- Switches attributes on, writes the text, and switches them off in the same order. -/
def painted (attributes : List Attribute) (text : String) : String :=
  String.join (attributes.map (code ·.on)) ++ text ++ String.join (attributes.map (code ·.off))

/-- A run of spaces. -/
def spaces (n : Nat) : String := "".pushn ' ' n

/-- Fills up with spaces on the right; a longer text is left whole. -/
def padRight (width : Nat) (text : String) : String := text ++ spaces (width - text.length)

/-- Fills up with spaces on the left; a longer text is left whole. -/
def padLeft (width : Nat) (text : String) : String := spaces (width - text.length) ++ text

/-- Ends each line with a line feed. -/
def lines (ls : List String) : String := String.join (ls.map (· ++ "\n"))

/-- A line that reports an error. -/
def errorLine (message : String) : String := painted [.red, .bold] "error" ++ ": " ++ message

/-- A line that warns. -/
def warningLine (message : String) : String := painted [.yellow, .bold] "warn" ++ ": " ++ message

/-- A line that adds to an error. -/
def noteLine (message : String) : String := painted [.green, .bold] "note" ++ ": " ++ message

end MipsMemory.CommandLine
