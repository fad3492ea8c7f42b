import MipsMemory.Numeral
import MipsMemory.Yaml.Source

/-!
Quoted scalars. Between single quotes only the quote itself is written specially, twice; between
double quotes a backslash starts an escape.
-/

namespace MipsMemory.Yaml

/-- The character that a hexadecimal escape of a given length names, and what follows it. -/
def hexEscape? (length : Nat) (cs : List Char) : Option (Char × List Char) :=
  let digits := cs.take length
  if digits.length < length then none
  else
    match Numeral.digits? 16 digits with
    | some n => if h : n.isValidChar then some (Char.ofNatAux n h, cs.drop length) else none
    | none => none

/-- The character that an escape stands for, from after the backslash. -/
def escape? : List Char → Option (Char × List Char)
  | '0' :: r => some ('\x00', r)
  | 'a' :: r => some ('\x07', r)
  | 'b' :: r => some ('\x08', r)
  | 't' :: r | '\t' :: r => some ('\t', r)
  | 'n' :: r => some ('\n', r)
  | 'v' :: r => some ('\x0b', r)
  | 'f' :: r => some ('\x0c', r)
  | 'r' :: r => some ('\r', r)
  | 'e' :: r => some ('\x1b', r)
  | ' ' :: r => some (' ', r)
  | '"' :: r => some ('"', r)
  | '/' :: r => some ('/', r)
  | '\\' :: r => some ('\\', r)
  | 'N' :: r => some ('\x85', r)
  | '_' :: r => some ('\xa0', r)
  | 'L' :: r => some ('\u2028', r)
  | 'P' :: r => some ('\u2029', r)
  | 'x' :: r => hexEscape? 2 r
  | 'u' :: r => hexEscape? 4 r
  | 'U' :: r => hexEscape? 8 r
  | _ => none

/-- The text up to the next blank, break or closing quote, and what follows it. -/
def singleWord : List Char → List Char × List Char
  | '\'' :: '\'' :: r =>
    let (word, rest) := singleWord r
    ('\'' :: word, rest)
  | '\'' :: r => ([], '\'' :: r)
  | c :: r =>
    if isBlank c || isBreak c then ([], c :: r)
    else
      let (word, rest) := singleWord r
      (c :: word, rest)
  | [] => ([], [])

/-- The same between double quotes; an escaped break ends the word too. -/
def doubleWord? (cs : List Char) : Option (List Char × List Char) :=
  match cs with
  | [] => some ([], [])
  | '"' :: r => some ([], '"' :: r)
  | '\\' :: r =>
    if r.head?.any isBreak then some ([], '\\' :: r)
    else
      match escape? r with
      | none => none
      | some (c, next) =>
        if next.length < r.length then
          (doubleWord? next).map fun (word, rest) => (c :: word, rest)
        else none
  | c :: r =>
    if isBlank c || isBreak c then some ([], c :: r)
    else (doubleWord? r).map fun (word, rest) => (c :: word, rest)
termination_by cs.length
decreasing_by
  all_goals simp_wf
  all_goals omega

/-- Reads on up to the closing quote. An escaped break joins two lines without a space. -/
def quotedFrom (double : Bool) (s : Source) : Option (List Char × Source) :=
  if s.atMark then none
  else
    match if double then doubleWord? s.rest else some (singleWord s.rest) with
    | none => none
    | some (word, rest) =>
      let s₁ := s.skipTo rest
      match rest with
      | [] => none
      | '"' :: _ | '\'' :: _ => some (word, s₁.skip 1)
      | c :: _ =>
        let escaped := c == '\\'
        let begun := if escaped then (s₁.skip 1).skipBreak.2 else s₁
        match begun.gap escaped 0 with
        | none => none
        | some (g, next) =>
          let joint := if escaped then g.breaks else g.text
          if next.rest.length < s.rest.length then
            (quotedFrom double next).map fun (more, finish) => (word ++ joint ++ more, finish)
          else none
termination_by s.rest.length

/-- Reads a quoted scalar from its opening quote. -/
def Source.quoted (s : Source) (double : Bool) : Option (List Char × Source) :=
  quotedFrom double (s.skip 1)

end MipsMemory.Yaml
