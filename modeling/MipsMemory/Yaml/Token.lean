import MipsMemory.Yaml.Scalar

/-!
The tokens of YAML. Block collections start and end with tokens of their own, which stand for
changes of indentation.
-/

namespace MipsMemory.Yaml

/-- What a text is made of before its nesting is known. -/
inductive Token where
  /-- A directive that names the version of YAML. -/
  | version (major minor : Nat)
  /-- A directive that says what a handle stands for. -/
  | handle (name : List Char) (stem : Tag)
  | documentStart
  | documentEnd
  | blockSequenceStart
  | blockMappingStart
  | blockEnd
  | flowSequenceStart
  | flowSequenceEnd
  | flowMappingStart
  | flowMappingEnd
  | blockEntry
  | flowEntry
  | key
  | value
  | reference (name : List Char)
  | anchor (name : List Char)
  /-- A tag that continues what its handle stands for, or is complete without one. -/
  | tag (handle : Option (List Char)) (suffix : Tag)
  | scalar (text : List Char) (style : Style)
  deriving DecidableEq, Repr

end MipsMemory.Yaml
