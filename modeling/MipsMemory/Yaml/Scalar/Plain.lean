import MipsMemory.Yaml.Source

/-!
Plain scalars: words without quotes, which may run on over several lines.
-/

namespace MipsMemory.Yaml

/-- Ends a plain scalar inside a flow collection. -/
def isFlowIndicator (c : Char) : Bool :=
  c == ',' || c == '[' || c == ']' || c == '\x7b' || c == '\x7d'

/-- The characters up to the next blank, break or indicator that ends a plain scalar. Inside a flow
collection a colon may not touch another indicator. -/
def plainWord? (flow : Bool) : List Char → Option (List Char)
  | [] => some []
  | c :: r =>
    if isBlank c || isBreak c then some []
    else if flow && c == ':' && r.head?.any fun d => isFlowIndicator d || d == '?' then none
    else if (c == ':' && atWordEnd r) || (flow && isFlowIndicator c) then some []
    else (plainWord? flow r).map (c :: ·)

/-- What a plain scalar came to: its text, whether breaks were passed over after its last word, and
what follows. -/
structure PlainText where
  text : List Char
  crossed : Bool
  source : Source

/-- Reads on from the start of a word, `joint` being the text of the gap before it. A line further
to the left ends the scalar, as do a comment and a document mark. -/
def plainFrom (flow : Bool) (indent : Nat) (joint : List Char) (crossed : Bool) (s : Source) :
    Option PlainText :=
  if s.atMark || s.rest.head? == some '#' then some ⟨[], crossed, s⟩
  else
    match plainWord? flow s.rest with
    | none => none
    | some [] => some ⟨[], crossed, s⟩
    | some word =>
      match (s.skip word.length).gap false indent with
      | none => none
      | some (g, next) =>
        if !flow && next.column < indent then some ⟨joint ++ word, g.crosses, next⟩
        else if next.rest.length < s.rest.length then
          (plainFrom flow indent g.text g.crosses next).map fun more =>
            { more with text := joint ++ word ++ more.text }
        else none
termination_by s.rest.length

/-- Reads the plain scalar that starts here. -/
def Source.plain (s : Source) (flow : Bool) (indent : Nat) : Option PlainText :=
  plainFrom flow indent [] false s

/-- May start a plain scalar. -/
def startsPlain (flow : Bool) : List Char → Bool
  | [] => false
  | '-' :: r => !r.head?.any isBlank
  | '?' :: r | ':' :: r => !flow && !atWordEnd r
  | c :: _ =>
    !(isBlank c || isBreak c || isFlowIndicator c || c == '#' || c == '&' || c == '*' ||
      c == '!' || c == '|' || c == '>' || c == '\'' || c == '"' || c == '%' || c == '@' ||
      c.toNat == 0x60)

end MipsMemory.Yaml
