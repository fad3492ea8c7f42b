import MipsMemory.Assembly.Unit
import MipsMemory.CommandLine.MapChoice
import MipsMemory.CommandLine.Terminal
import MipsMemory.StatementFile

/-!
What the layout program shows: the directives, or the symbols of a statement file once it is laid
out.
-/

namespace MipsMemory.CommandLine.Assembler

/-- A directive as the listing shows it. -/
def directiveLine (d : Directive) : String :=
  painted [.green] (padRight 11 d.token) ++ " " ++ d.description

/-- Lists the directives that start with a text in any case, or all of them. -/
def directives : Option String → Output
  | none => ⟨0, lines (Directive.catalogue.map directiveLine)⟩
  | some typed =>
    match Directive.suggestions typed with
    | [] => ⟨0, lines [warningLine ("No directive matches " ++ Error.quoted typed)]⟩
    | found => ⟨0, lines (found.map directiveLine)⟩

/-- Points at a statement of a file; statements are shown counted from one. -/
def pointer (file : String) (index : Nat) (statement : String) : List String :=
  let number := (index + 1).repr
  ["     " ++ painted [.blue] "-->" ++ " " ++ painted [.underline] (file ++ ":#" ++ number),
    "      " ++ painted [.blue] "|",
    " " ++ painted [.blue] (padLeft 4 number ++ " |") ++ " " ++ statement,
    "      " ++ painted [.blue] "|"]

/-- The line above and below the symbols. -/
def rule : String := "-------------+-------+------+----------------------------------"

/-- A symbol as the table shows it: address, segment, size and name. -/
def symbolLine (b : Binding) : String :=
  " " ++ painted [.cyan] (Numeral.hex b.item.address) ++ " | " ++
    padRight 5 b.item.segment.name ++ " | " ++ padLeft 4 b.item.size.toNat.repr ++ " | " ++ b.name

/-- Warns of a label that was bound more than once. -/
def redefinitionLine (name : String) : String :=
  warningLine ("Re-defined label: " ++ Error.quoted name)

/-- What is said of a statement that failed; a segment that overflows ends the whole unit. -/
def failureLines (file : String) (statements : List Statement) (f : Assembly.Failure) :
    List String :=
  let statement := (statements[f.index]?.map Statement.toText).getD ""
  let note := match f.error with
    | .allocationOverflow .. => [noteLine "Assembly of this unit was aborted"]
    | _ => []
  errorLine f.error.message :: pointer file f.index statement ++ note

/-- Warns of the labels bound again and lists the symbols. -/
def tableLines (u : Assembled) : List String :=
  let table := u.table
  table.redefined.map redefinitionLine ++ rule :: table.symbols.map symbolLine ++ [rule]

/-- Lays out a list of statements that was read from a file. -/
def shown (m : MemoryMap) (file : String) (statements : List Statement) : Bool × List String :=
  match Assembly.layout m statements with
  | .ok u => (true, tableLines u)
  | .error f => (false, failureLines file statements f)

/-- The statements a file holds, if there is such a file. -/
def statementsOf (files : Files) (file : String) : Except Error (List Statement) :=
  match files file with
  | some text => StatementFile.read text
  | none => .error (.configRead file)

/-- The lines are shown up to the first problem. -/
def layoutLines (files : Files) (choice : MapChoice) (file : String) : Bool × List String :=
  let title := "MIPS Segment Layout"
  match choice.find files with
  | .error message => (false, [title, errorLine message])
  | .ok m =>
    let head := [title, "  * config: " ++ m.name, "  < " ++ file]
    match statementsOf files file with
    | .error e => (false, head ++ [errorLine e.message])
    | .ok statements =>
      let (done, body) := shown m file statements
      (done, head ++ body)

/-- Shows a layout; the exit code says whether all went well. -/
def layout (files : Files) (choice : MapChoice) (file : String) : Output :=
  let (done, shown) := layoutLines files choice file
  ⟨if done then 0 else 1, lines shown⟩

end MipsMemory.CommandLine.Assembler
