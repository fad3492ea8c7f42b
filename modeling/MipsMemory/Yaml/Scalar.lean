import MipsMemory.Number.Binary64
import MipsMemory.Numeral
import MipsMemory.Yaml.Tag

/-!
Scalars and what they stand for. A plain scalar is a null, a boolean or a number if it is spelled
like one; every other scalar is text. Main statement: what is not plain is text, however it is
spelled.
-/

namespace MipsMemory.Yaml

/-- How a scalar is written. -/
inductive Style where
  | plain
  | singleQuoted
  | doubleQuoted
  | literal
  | folded
  deriving DecidableEq, Repr

/-- A scalar as it was written, with its tag if it has one. -/
structure Scalar where
  text : List Char
  style : Style
  tag : Option Tag
  deriving DecidableEq, Repr

namespace Scalar

/-- What stands where nothing is written. -/
def empty : Scalar := ⟨[], .plain, none⟩

/-- What a scalar stands for. An integer is `large` if it fits 128 bits but not 64. -/
inductive Value where
  | null
  | bool (b : Bool)
  | int (n : Int)
  | large
  | float (x : Binary64)
  | text (cs : List Char)
  deriving DecidableEq, Repr

/-- A spelling of the null. -/
def isNull (cs : List Char) : Bool :=
  cs == "null".toList || cs == "Null".toList || cs == "NULL".toList || cs == ['~']

/-- The boolean a spelling stands for. -/
def bool? (cs : List Char) : Option Bool :=
  if cs == "true".toList || cs == "True".toList || cs == "TRUE".toList then some true
  else if cs == "false".toList || cs == "False".toList || cs == "FALSE".toList then some false
  else none

/-- Digits with a needless zero in front are text. -/
def hasLeadingZero (cs : List Char) : Bool :=
  let digits := match cs with
    | '-' :: r | '+' :: r => r
    | r => r
  match digits with
  | '0' :: d :: r => (d :: r).all Char.isDigit
  | _ => false

/-- The digits of an integer without its sign, in the base their marker names. -/
def magnitude? (cs : List Char) : Option Nat :=
  match cs with
  | '0' :: 'x' :: r => Numeral.digits? 16 r
  | '0' :: 'o' :: r => Numeral.digits? 8 r
  | '0' :: 'b' :: r => Numeral.digits? 2 r
  | r => if hasLeadingZero r then none else Numeral.digits? 10 r

/-- The integer without a minus sign that a spelling stands for. -/
def natural? : List Char → Option Nat
  | '+' :: r => magnitude? r
  | r => magnitude? r

/-- The magnitude of an integer written with a minus sign. -/
def negated? : List Char → Option Nat
  | '-' :: r => magnitude? r
  | _ => none

/-- Splits off the exponent of a decimal; a decimal without one has exponent zero. -/
def exponent? : List Char → Option Int
  | [] => some 0
  | 'e' :: r | 'E' :: r =>
    match r with
    | '-' :: r => (Numeral.digits? 10 r).map fun n => -(n : Int)
    | '+' :: r => (Numeral.digits? 10 r).map Int.ofNat
    | r => (Numeral.digits? 10 r).map Int.ofNat
  | _ => none

/-- Reads digits around at most one point, with an optional exponent. -/
def decimal? (negative : Bool) (cs : List Char) : Option Binary64 :=
  let whole := cs.takeWhile Char.isDigit
  let (fraction, rest) := match cs.dropWhile Char.isDigit with
    | '.' :: r => (r.takeWhile Char.isDigit, r.dropWhile Char.isDigit)
    | r => ([], r)
  match Numeral.digits? 10 (whole ++ fraction), exponent? rest with
  | some digits, some exponent =>
    let x := Binary64.ofDecimal negative digits (exponent - fraction.length)
    if x.IsFinite then some x else none
  | _, _ => none

/-- A spelling of infinity, without a sign. -/
def isInfinity (cs : List Char) : Bool :=
  cs == ".inf".toList || cs == ".Inf".toList || cs == ".INF".toList

/-- A spelling of what is no number. -/
def isNan (cs : List Char) : Bool :=
  cs == ".nan".toList || cs == ".NaN".toList || cs == ".NAN".toList

/-- A float; a decimal too large for a finite one is none. -/
def float? (cs : List Char) : Option Binary64 :=
  if isNan cs then some .nan
  else
    match cs with
    | '-' :: r => if isInfinity r then some (.infinity true) else decimal? true r
    | '+' :: r => if isInfinity r then some (.infinity false) else decimal? false r
    | r => if isInfinity r then some (.infinity false) else decimal? false r

/-- An integer of at most 128 bits. -/
def int? (cs : List Char) : Option Value :=
  match natural? cs, negated? cs with
  | some n, _ => if n < 1 <<< 64 then some (.int n) else if n < 1 <<< 128 then some .large else none
  | none, some n =>
    if n ≤ 1 <<< 63 then some (.int (-n)) else if n ≤ 1 <<< 127 then some .large else none
  | none, none => none

/-- What a plain scalar stands for. -/
def plainValue (cs : List Char) : Value :=
  if cs.isEmpty || isNull cs then .null
  else
    match bool? cs, int? cs, float? cs with
    | some b, _, _ => .bool b
    | none, some value, _ => value
    | none, none, some x => if hasLeadingZero cs then .text cs else .float x
    | none, none, none => .text cs

/-- What a scalar stands for by its spelling and its style. -/
def untaggedValue (s : Scalar) : Value :=
  if s.style = .plain then plainValue s.text else .text s.text

/-- What a scalar stands for. A core tag asks for a value of its kind, a tag of the document's own
makes it unreadable, and any other tag makes it text unless it starts with an exclamation mark. -/
def value? (s : Scalar) : Option Value :=
  match s.tag with
  | none => some s.untaggedValue
  | some tag =>
    if tag = Tag.core "bool" then (bool? s.text).map .bool
    else if tag = Tag.core "int" then int? s.text
    else if tag = Tag.core "float" then (float? s.text).map .float
    else if tag = Tag.core "null" then if isNull s.text then some .null else none
    else if tag.isLocal then none
    else if Tag.lone.isPrefixOf tag then some s.untaggedValue
    else some (.text s.text)

/-- Where a number or a boolean is asked for, it must be plain or a literal block with its tag. -/
def isBare (s : Scalar) (tag : String) : Bool :=
  s.style == .plain || (s.style == .literal && s.tag == some (Tag.core tag))

/-- An unsigned number below a bound. -/
def unsigned? (s : Scalar) (bound : Nat) : Option Nat :=
  if s.isBare "int" then (natural? s.text).filter (· < bound) else none

/-- A boolean, where only one of those will do. -/
def flag? (s : Scalar) : Option Bool :=
  if s.isBare "bool" then bool? s.text else none

/-- Text that may be absent: none within is a null, none without is unreadable. -/
def optionalText? (s : Scalar) : Option (Option (List Char)) :=
  if s.style ≠ .plain then some (some s.text)
  else
    match s.tag with
    | none => some (if s.text.isEmpty || isNull s.text then none else some s.text)
    | some tag =>
      if tag ≠ Tag.core "null" then some (some s.text)
      else if isNull s.text then some none
      else none

/-- Nothing at all stands for an empty collection. -/
def isVoid (s : Scalar) : Bool := s.text.isEmpty && s.style == .plain

theorem value?_of_quoted {s : Scalar} (hs : s.style ≠ .plain) (ht : s.tag = none) :
    s.value? = some (.text s.text) := by
  simp [value?, untaggedValue, ht, hs]

end Scalar

end MipsMemory.Yaml
