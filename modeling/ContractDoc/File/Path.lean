import ContractDoc.Text.Segment

/-!
# Paths

A path is a root, which is empty for a relative path, and the names on the way
from there.  Empty names and single dots are dropped when a path is read; double
dots stay until the path is resolved.
-/

namespace ContractDoc

open Text

/-- The directory part of a path text: all up to the last slash, without the
slashes at its end unless there is nothing else. -/
def directoryOf (path : String) : String :=
  let text := path.toList
  let front := text.take (text.length - (afterLast '/' text).length)
  if front.all (· == '/') then String.ofList front
  else String.ofList (front.reverse.dropWhile (· == '/')).reverse

/-- A path in a file system. -/
structure Path where
  /-- Empty for a relative path, else one slash, or two if exactly two were
  given. -/
  root : String
  parts : List String
  deriving DecidableEq, Repr

namespace Path

/-- The names in a path text, without empty ones and single dots. -/
def namesOf (text : List Char) : List String :=
  ((segments '/' text).map String.ofList).filter fun name => name ≠ "" ∧ name ≠ "."

/-- Reads a path. -/
def ofString (text : String) : Path :=
  let slashes := text.toList.takeWhile (· == '/')
  let root := match slashes with
    | [] => ""
    | ['/', '/'] => "//"
    | _ => "/"
  ⟨root, namesOf text.toList⟩

/-- Whether a path starts at the root of the file system. -/
def isAbsolute (path : Path) : Bool :=
  path.root != ""

/-- The text of a path; the empty relative path is a dot. -/
def toString (path : Path) : String :=
  if path.root = "" ∧ path.parts = [] then "."
  else path.root ++ "/".intercalate path.parts

instance : ToString Path := ⟨toString⟩

/-- The path that continues another; an absolute one replaces it. -/
def join (base other : Path) : Path :=
  if other.isAbsolute then other else ⟨base.root, base.parts ++ other.parts⟩

/-- Whether a name on a path holds a null byte. -/
def hasNullByte (path : Path) : Bool :=
  path.parts.any fun name => name.toList.contains '\x00'

/-- The last name of a path, which is empty if there is none. -/
def name (path : Path) : String :=
  path.parts.getLastD ""

/-- The path without its last name. -/
def parent (path : Path) : Path :=
  ⟨path.root, path.parts.dropLast⟩

theorem length_parts_parent_lt
    {path : Path}
    (above : path.parent ≠ path) :
    path.parent.parts.length < path.parts.length := by
  have nonempty : path.parts ≠ [] := by
    intro none
    exact above (congrArg (Path.mk path.root) (by rw [none, List.dropLast_nil]))
  have positive := List.length_pos_iff.2 nonempty
  rw [parent, List.length_dropLast]
  omega

/-- A path and those above it, nearest first.  The walk ends where a path is its own
parent. -/
def upwards (path : Path) : List Path :=
  if _ : path.parent = path then [path]
  else path :: path.parent.upwards
termination_by path.parts.length
decreasing_by exact length_parts_parent_lt (by assumption)

/-- The names of a path with the root as the first one. -/
def components (path : Path) : List String :=
  if path.isAbsolute then path.root :: path.parts else path.parts

/-- The ending of a file name from its last dot on.  A dot at the start or at
the end of the name begins no ending. -/
def extension (path : Path) : String :=
  let name := path.name.toList
  let ending := afterLast '.' name
  if ending.length + 1 < name.length ∧ ending ≠ [] then String.ofList ('.' :: ending)
  else ""

/-- Follows one name from an absolute place; double dots lead up, and stay at
the top. -/
def follow (place : List String) (name : String) : List String :=
  if name = ".." then place.dropLast else place ++ [name]

/-- The absolute place of a path, seen from a current directory. -/
def place (current : List String) (path : Path) : List String :=
  path.parts.foldl follow (if path.isAbsolute then [] else current)

/-- The absolute path of a place. -/
def ofPlace (place : List String) : Path :=
  ⟨"/", place⟩

/-- The absolute path without double dots, seen from a current directory. -/
def resolve (current : List String) (path : Path) : Path :=
  ofPlace (path.place current)

end Path
end ContractDoc
