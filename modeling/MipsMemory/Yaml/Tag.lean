import MipsMemory.Numeral

/-!
Tags, the names of the kinds that nodes are of. A tag is a sequence of bytes, since an escape in one
stands for a byte. Main statement: a character that a tag may hold reads as itself.
-/

namespace MipsMemory.Yaml

/-- May stand in the name of a tag's handle. -/
def isWordChar (c : Char) : Bool := c.isAlphanum || c == '_' || c == '-'

/-- The name of a kind, in bytes. -/
abbrev Tag := List UInt8

namespace Tag

/-- The bytes of some characters. -/
def ofChars (cs : List Char) : Tag := cs.flatMap String.utf8EncodeChar

/-- What the names of all kinds that every program knows begin with. -/
def coreStem : Tag := ofChars "tag:yaml.org,2002:".toList

/-- The tag of a kind that every program knows. -/
def core (name : String) : Tag := coreStem ++ ofChars name.toList

/-- The tag that is an exclamation mark and nothing else. -/
def lone : Tag := ofChars ['!']

/-- A kind of the document's own: such a tag starts with an exclamation mark and is well-formed
text. -/
def isLocal (t : Tag) : Bool :=
  lone.isPrefixOf t && (ByteArray.mk t.toArray).validateUTF8

/-- A zero byte ends a tag. -/
def upToZero (t : Tag) : Tag := t.takeWhile (· != 0)

/-- May stand in a tag as itself; between angle brackets a few more may. -/
def mayHold (verbatim : Bool) (c : Char) : Bool :=
  isWordChar c || ";/?:@&=+$.!~*\x27()".toList.contains c || (verbatim && ",[]".toList.contains c)

/-- How many bytes follow the first one of a character. -/
def following? (first : UInt8) : Option Nat :=
  if first < 0x80 then some 0
  else if 0xc0 ≤ first && first < 0xe0 then some 1
  else if 0xe0 ≤ first && first < 0xf0 then some 2
  else if 0xf0 ≤ first && first < 0xf8 then some 3
  else none

/-- The bytes of a tag up to the first character that it may not hold, and what follows them. A
percent sign and two digits stand for a byte; with `owed` bytes of a character still to come, such
an escape must be next. -/
def read? (verbatim : Bool) (owed : Nat) : List Char → Option (Tag × List Char)
  | '%' :: a :: b :: r => do
    let byte := UInt8.ofNat (← Numeral.digits? 16 [a, b])
    let still ←
      if owed = 0 then following? byte
      else if 0x80 ≤ byte && byte < 0xc0 then some (owed - 1)
      else none
    let (t, rest) ← read? verbatim still r
    return (byte :: t, rest)
  | c :: r =>
    if owed ≠ 0 || c == '%' then none
    else if mayHold verbatim c then
      (read? verbatim 0 r).map fun (t, rest) => (ofChars [c] ++ t, rest)
    else some ([], c :: r)
  | [] => if owed = 0 then some ([], []) else none

theorem read?_cons {verbatim : Bool} {c : Char} (h : mayHold verbatim c) (r : List Char) :
    read? verbatim 0 (c :: r) =
      (read? verbatim 0 r).map fun (t, rest) => (ofChars [c] ++ t, rest) := by
  have hc : c ≠ '%' := by
    rintro rfl
    cases verbatim <;> revert h <;> decide
  rw [read?.eq_2 _ _ _ _ fun _ _ _ heq _ => hc heq]
  simp [hc, h]

end Tag

end MipsMemory.Yaml
