import MipsMemory.Yaml.Source
import MipsMemory.Yaml.Token

/-!
Directives, the lines in front of a document that start with a percent sign: the version of YAML,
and what the handles of tags stand for. No other directive has a meaning.
-/

namespace MipsMemory.Yaml

/-- A number of at most nine digits, and what follows it. -/
def versionNumber? (cs : List Char) : Option (Nat × List Char) :=
  let digits := cs.takeWhile Char.isDigit
  if digits.length ≤ 9 then
    (Numeral.digits? 10 digits).map fun n => (n, cs.dropWhile Char.isDigit)
  else none

/-- Two numbers with a point between them. -/
def versionDirective? (cs : List Char) : Option (Token × List Char) := do
  match ← versionNumber? cs with
  | (major, '.' :: r) =>
    let (minor, rest) ← versionNumber? r
    return (.version major minor, rest)
  | _ => none

/-- A handle by itself: an exclamation mark, or a word between two. -/
def handle? : List Char → Option (List Char × List Char)
  | '!' :: r =>
    let word := r.takeWhile isWordChar
    match r.dropWhile isWordChar with
    | '!' :: rest => some ('!' :: word ++ ['!'], rest)
    | rest => if word.isEmpty then some (['!'], rest) else none
  | _ => none

/-- A handle and, after a blank, the beginning of the tags it stands for. -/
def handleDirective? (cs : List Char) : Option (Token × List Char) := do
  let (name, r) ← handle? cs
  if !r.head?.any isBlank then none
  else
    let (stem, rest) ← Tag.read? true 0 (r.dropWhile isBlank)
    if stem.isEmpty || !atWordEnd rest then none
    else some (.handle name (Tag.upToZero stem), rest)

/-- A directive from its percent sign on, and what follows it on its line. -/
def directive? (cs : List Char) : Option (Token × List Char) :=
  let name := (cs.drop 1).takeWhile isWordChar
  let rest := (cs.drop 1).dropWhile isWordChar
  if !atWordEnd rest then none
  else if name == "YAML".toList then versionDirective? (rest.dropWhile isBlank)
  else if name == "TAG".toList then handleDirective? (rest.dropWhile isBlank)
  else none

end MipsMemory.Yaml
