import MipsMemory.CommandLine.MapChoice
import MipsMemory.CommandLine.Terminal
import MipsMemory.Machine

/-!
What the probe program shows: for each address, whether a memory map lets it be accessed.
-/

namespace MipsMemory.CommandLine.Probe

/-- Names the kind of access. -/
def kindFlag : Flag := ⟨'k', "kind"⟩

/-- Names how many bytes are accessed. -/
def widthFlag : Flag := ⟨'w', "width"⟩

/-- The byte count asked for: a numeral below two to the 32nd power; it need not be a width. -/
def byteCount? (text : String) : Option Nat :=
  match text.toList with
  | '-' :: digits => (Numeral.digits? 10 digits).filter (· = 0)
  | digits => Numeral.unsigned? 10 UInt32.size digits

/-- What is asked of each address. -/
structure Request where
  kind : AccessKind
  bytes : Nat
  addresses : List String
  deriving DecidableEq, Repr

/-- What the arguments ask for; unless they say otherwise a word is loaded. -/
def request? (args : Arguments) : Option Request := do
  let kind ← AccessKind.ofName? ((args.value? kindFlag).getD "load")
  let bytes ← byteCount? ((args.value? widthFlag).getD "4")
  return ⟨kind, bytes, args.operands⟩

/-- The line of an address, and whether it is a fault. -/
def addressLine (machine : Machine) (kind : AccessKind) (width : Width) (text : String) :
    Bool × String :=
  match Numeral.address? text with
  | none => (false, warningLine ("Cannot parse " ++ Error.quoted text ++ " as address"))
  | some address =>
    match machine.probe address kind width with
    | .ok address => (false, " " ++ painted [.green] "ok" ++ "    " ++ Numeral.hex address)
    | .error (.address refused) =>
      (true, " " ++ painted [.red, .bold] ("cause " ++ refused.kind.cause.repr) ++ " " ++
        refused.message)
    | .error e => (false, errorLine e.message)

/-- The line above and below the title. -/
def border : String := "+-----------------------------------------------+"

/-- The line after the last address. -/
def footer : String := "================================================="

/-- The answers for all addresses; the exit code says whether one of them was a fault. -/
def report (m : MemoryMap) (width : Width) (r : Request) : Output :=
  let machine := Machine.fresh m
  let title := r.kind.name ++ " " ++ width.name ++ " (" ++ m.name ++ ")"
  let checked := r.addresses.map (addressLine machine r.kind width)
  let exit := if checked.any Prod.fst then 2 else 0
  let head := [border, "| " ++ padRight 45 title ++ " |", border]
  ⟨exit, lines (head ++ checked.map Prod.snd ++ [footer])⟩

/-- The map is looked at before the width. -/
def probe (files : Files) (choice : MapChoice) (r : Request) : Output :=
  match choice.find files, Width.ofBytes r.bytes with
  | .error message, _ => ⟨1, lines [errorLine message]⟩
  | .ok _, .error e => ⟨1, lines [errorLine e.message]⟩
  | .ok m, .ok width => report m width r

end MipsMemory.CommandLine.Probe
