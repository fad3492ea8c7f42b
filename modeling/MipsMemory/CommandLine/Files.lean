/-!
Files by path. A path is names with slashes between them, followed from the working folder or, with
a slash in front, from the root. Main statement: a name by itself finds the file of that name in the
working folder.
-/

namespace MipsMemory.CommandLine

/-- The texts of the files at hand, by path; a file that is not text counts as missing. -/
abbrev Files := String → Option String

/-- The names that lead from the root to a folder or a file, outermost first. -/
abbrev Trail := List (List Char)

/-- The folders and files of a machine, and the folder that a program is started in. A link is one
more trail to a folder. -/
structure Disk where
  working : Trail
  folders : List Trail
  links : List (Trail × Trail)
  texts : List (Trail × String)

/-- The parts of a text between its slashes; they may be empty. -/
def parts : List Char → List (List Char)
  | [] => [[]]
  | c :: cs =>
    if c = '/' then [] :: parts cs
    else
      match parts cs with
      | [] => [[c]]
      | name :: names => (c :: name) :: names

theorem parts_of_not_mem {cs : List Char} (h : '/' ∉ cs) : parts cs = [cs] := by
  induction cs with
  | nil => rfl
  | cons c cs ih =>
    simp only [List.mem_cons, not_or] at h
    simp [parts, Ne.symm h.1, ih h.2]

namespace Trail

/-- An empty name and a single dot lead nowhere. -/
def isIdle (name : List Char) : Bool := name == [] || name == ['.']

end Trail

namespace Disk

/-- Is named as one, or has something below it. -/
def isFolder (d : Disk) (trail : Trail) : Bool :=
  d.folders.contains trail || trail.isPrefixOf d.working ||
    d.texts.any fun entry => trail.isPrefixOf entry.1 && decide (trail.length < entry.1.length)

/-- Follows names from a folder to a file. Two dots lead one folder up; above the root is the root
again. -/
def follow? (d : Disk) (trail : Trail) : List (List Char) → Option String
  | [] => none
  | [name] => d.texts.lookup (trail ++ [name])
  | name :: rest =>
    if Trail.isIdle name then d.follow? trail rest
    else if name = ['.', '.'] then d.follow? trail.dropLast rest
    else
      match d.links.lookup (trail ++ [name]) with
      | some target => d.follow? target rest
      | none => if d.isFolder (trail ++ [name]) then d.follow? (trail ++ [name]) rest else none

/-- The bytes of the longest path. -/
def longestPath : Nat := 4095

/-- The files that the paths of a disk lead to, from the root with a slash in front. -/
def files (d : Disk) : Files := fun path =>
  if longestPath < path.utf8ByteSize then none
  else
    match path.toList with
    | '/' :: cs => d.follow? [] (parts cs)
    | cs => d.follow? d.working (parts cs)

theorem files_of_not_mem (d : Disk) {path : String} (h : '/' ∉ path.toList)
    (hl : path.utf8ByteSize ≤ longestPath) :
    d.files path = d.texts.lookup (d.working ++ [path.toList]) := by
  rw [files, if_neg (Nat.not_lt.mpr hl)]
  split
  · rename_i cs hcs
    simp [hcs] at h
  · simp [parts_of_not_mem h, follow?]

end Disk

end MipsMemory.CommandLine
