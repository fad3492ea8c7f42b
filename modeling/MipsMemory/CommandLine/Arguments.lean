/-!
Options with a value, and operands. An option may be given once, in the forms `-n value`, `-nvalue`,
`-n=value`, `--name value` and `--name=value`; two dashes alone end the options.
-/

namespace MipsMemory.CommandLine

/-- An option by its short and its long name. -/
structure Flag where
  short : Char
  long : String
  deriving DecidableEq, Repr

/-- What arguments come to: flags with their values, latest first, and operands in order. -/
structure Arguments where
  options : List (Flag × String)
  operands : List String
  deriving DecidableEq, Repr

namespace Arguments

/-- Notes a flag with its value; the value given last counts. -/
def addOption (flag : Flag) (value : String) (a : Arguments) : Arguments :=
  { a with options := (flag, value) :: a.options }

/-- Puts an operand in front of those already read. -/
def addOperand (operand : String) (a : Arguments) : Arguments :=
  { a with operands := operand :: a.operands }

/-- A single dash is an operand. -/
def looksLikeOption (arg : String) : Bool :=
  match arg.toList with
  | '-' :: _ :: _ => true
  | _ => false

/-- The option an argument names, with the value attached to it if there is one. -/
def option? (flags : List Flag) (arg : String) : Option (Flag × Option String) :=
  match arg.toList with
  | '-' :: '-' :: text =>
    let name := String.ofList (text.takeWhile (· != '='))
    (flags.find? (·.long = name)).map fun flag =>
      match text.dropWhile (· != '=') with
      | _ :: value => (flag, some (String.ofList value))
      | [] => (flag, none)
  | '-' :: c :: text =>
    (flags.find? (·.short = c)).map fun flag =>
      match text with
      | [] => (flag, none)
      | '=' :: value => (flag, some (String.ofList value))
      | value => (flag, some (String.ofList value))
  | _ => none

/-- Sorts arguments into options and operands; none if one of them is out of place. -/
def sort? (flags : List Flag) : List String → Option Arguments
  | [] => some ⟨[], []⟩
  | arg :: rest =>
    if arg = "--" then some ⟨[], rest⟩
    else if looksLikeOption arg then
      match option? flags arg, rest with
      | some (flag, some value), rest => (sort? flags rest).map (addOption flag value)
      | some (flag, none), value :: rest =>
        if looksLikeOption value then none else (sort? flags rest).map (addOption flag value)
      | _, _ => none
    else (sort? flags rest).map (addOperand arg)

/-- The same with no option given twice. -/
def parse? (flags : List Flag) (args : List String) : Option Arguments :=
  (sort? flags args).filter fun a => decide (a.options.map Prod.fst).Nodup

/-- The value of a flag that was given. -/
def value? (a : Arguments) (flag : Flag) : Option String :=
  (a.options.find? (·.1 = flag)).map Prod.snd

end Arguments

end MipsMemory.CommandLine
