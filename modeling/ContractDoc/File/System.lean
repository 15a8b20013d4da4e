import ContractDoc.Entries
import ContractDoc.File.Error
import ContractDoc.File.Path

/-!
# File systems

A file system is a table of what is found at each absolute place, with a current
directory from which relative paths start.  Every directory on the way to an
entry is an entry itself.

Following a path goes through existing directories only, also where double dots
lead back up.  It is refused where a name or the whole path is too long, and where a
directory on the way may not be searched.  There are no links.
-/

namespace ContractDoc

/-- What is found at a place. -/
inductive FileNode where
  | directory
  | file (contents : ByteArray)

namespace FileNode

/-- Whether a file is found. -/
def isFile : FileNode → Bool
  | directory => false
  | file _ => true

/-- Whether a directory is found. -/
def isDirectory : FileNode → Bool
  | directory => true
  | file _ => false

end FileNode

/-- The contents of a file system. -/
structure FileSystem where
  entries : Entries (List String) FileNode
  /-- The place of the current directory. -/
  current : List String
  /-- The places without access.  A directory there is neither searched nor listed, and a
  file there is neither read nor written. -/
  closed : List (List String) := []
  /-- The greatest number of bytes of a name. -/
  nameLimit : Nat := 255
  /-- The greatest number of bytes of the text of a path. -/
  pathLimit : Nat := 4095

namespace FileSystem

/-- The file system without entries, at its root. -/
def empty : FileSystem where
  entries := []
  current := []

/-- What is found at a place.  The root is always there. -/
def node? (files : FileSystem) (place : List String) : Option FileNode :=
  if place = [] then some .directory else Entries.get? place files.entries

/-- The places on the way from the root to a place, with the place itself. -/
def placesTo (place : List String) : List (List String) :=
  (List.range place.length).map fun count => place.take (count + 1)

/-- Adds a directory and those on the way to it. -/
def addDirectory (files : FileSystem) (place : List String) : FileSystem :=
  { files with
    entries := (placesTo place).foldl
      (fun entries place =>
        if Entries.has place entries then entries
        else Entries.insert place .directory entries)
      files.entries }

/-- Adds a file and the directories on the way to it. -/
def addFile (files : FileSystem) (place : List String) (contents : ByteArray) :
    FileSystem :=
  let files := files.addDirectory place.dropLast
  { files with entries := Entries.insert place (.file contents) files.entries }

/-- Why a path leads nowhere. -/
inductive Obstacle where
  | missing
  | notDirectory
  | nameTooLong
  | forbidden
  deriving DecidableEq, Repr

/-- Follows a name from a place, which has to be a directory that may be searched. -/
def enter (files : FileSystem) (place : List String) (name : String) :
    Except Obstacle (List String) :=
  match files.node? place with
  | none => .error .missing
  | some (.file _) => .error .notDirectory
  | some .directory =>
      if place ∈ files.closed then .error .forbidden
      else if files.nameLimit < name.utf8ByteSize then .error .nameTooLong
      else .ok (Path.follow place name)

/-- The place that a path leads to; nothing need be found there. -/
def locate (files : FileSystem) (path : Path) : Except Obstacle (List String) :=
  if files.pathLimit < path.toString.utf8ByteSize then .error .nameTooLong
  else path.parts.foldlM files.enter (if path.isAbsolute then [] else files.current)

/-- What a path leads to. -/
def lookUp (files : FileSystem) (path : Path) : Except Obstacle FileNode := do
  match files.node? (← files.locate path) with
  | none => throw .missing
  | some node => return node

/-- The error of an obstacle on a path. -/
def Obstacle.toError (path : Path) : Obstacle → FileError
  | missing => .missing path.toString
  | notDirectory => .notDirectory path.toString
  | nameTooLong => .nameTooLong path.toString
  | forbidden => .forbidden path.toString

/-- Whether an obstacle only means that nothing is there. -/
def Obstacle.isAbsence : Obstacle → Bool
  | missing | notDirectory => true
  | nameTooLong | forbidden => false

/-- What a path leads to, if anything.  It is an error if this cannot be told. -/
def probe (files : FileSystem) (path : Path) : Except FileError (Option FileNode) :=
  if path.hasNullByte then .ok none
  else
    match files.lookUp path with
    | .ok node => .ok (some node)
    | .error obstacle =>
        if obstacle.isAbsence then .ok none else .error (obstacle.toError path)

/-- Whether a path leads to a file or directory. -/
def pathExists (files : FileSystem) (path : Path) : Except FileError Bool :=
  (files.probe path).map Option.isSome

/-- Whether a path leads to a file. -/
def isFile (files : FileSystem) (path : Path) : Except FileError Bool :=
  (files.probe path).map (·.any FileNode.isFile)

/-- Whether a path leads to a directory. -/
def isDirectory (files : FileSystem) (path : Path) : Except FileError Bool :=
  (files.probe path).map (·.any FileNode.isDirectory)

/-- What is opened at a place; there has to be access to it. -/
def openPlace (files : FileSystem) (place : List String) : Except Obstacle FileNode :=
  match files.node? place with
  | none => .error .missing
  | some node => if place ∈ files.closed then .error .forbidden else .ok node

/-- What is opened at a path. -/
def openAt (files : FileSystem) (path : Path) : Except Obstacle FileNode := do
  files.openPlace (← files.locate path)

/-- A text in which every line ends with a line feed alone: a carriage return
becomes one, unless a line feed follows it anyway. -/
def normalizeLineEnds (text : List Char) : List Char :=
  (text.foldr
    (fun c (next, rest) =>
      (some c,
        if c ≠ '\r' then c :: rest
        else if next = some '\n' then rest
        else '\n' :: rest))
    ((none : Option Char), ([] : List Char))).2

/-- Reads a file as a text. -/
def readText (files : FileSystem) (path : Path) : Except FileError String := do
  match ← (files.openAt path).mapError (Obstacle.toError path) with
  | .directory => throw (.isDirectory path.toString)
  | .file contents =>
      match String.fromUTF8? contents with
      | none => throw (.undecodable path.toString)
      | some text => return String.ofList (normalizeLineEnds text.toList)

/-- Writes a text to a file, which is made if it does not exist. -/
def writeText (files : FileSystem) (path : Path) (text : String) :
    Except FileError FileSystem := do
  if path.hasNullByte then throw .nullByte
  let place ← (files.locate path).mapError (Obstacle.toError path)
  match files.node? place with
  | some .directory => throw (.isDirectory path.toString)
  | _ =>
      if place ∈ files.closed then throw (.forbidden path.toString)
      return { files with entries := Entries.insert place (.file text.toUTF8) files.entries }

/-- Whether names come before others in the order of paths: by the first name
that differs. -/
def namesLe : List String → List String → Bool
  | [], _ => true
  | _ :: _, [] => false
  | name :: names, other :: others =>
      name < other || (name == other && namesLe names others)

/-- Whether the entries of a directory and of those below it are listed down to a place:
there has to be access to all of them. -/
def isListed (files : FileSystem) (directory place : List String) : Bool :=
  (List.range (place.length - directory.length)).all fun count =>
    !files.closed.contains (place.take (directory.length + count))

/-- The names that lead from a directory to the entries below it, in order. -/
def below (files : FileSystem) (directory : List String) : List (List String) :=
  ((files.entries.filter fun entry =>
      directory.isPrefixOf entry.1 && directory.length < entry.1.length &&
        files.isListed directory entry.1).map fun entry =>
    entry.1.drop directory.length).mergeSort namesLe

/-- The names that lead from the directory at a path to the entries below it, in order.  All
directories on the way are listed, so their paths may not be too long. -/
def list (files : FileSystem) (path : Path) (directory : List String) :
    Except FileError (List (List String)) :=
  let names := files.below directory
  let tooLong := names.find? fun names =>
    (files.node? (directory ++ names)).any FileNode.isDirectory &&
      files.pathLimit < (path.join ⟨"", names⟩).toString.utf8ByteSize
  match tooLong with
  | some names => .error (.nameTooLong (path.join ⟨"", names⟩).toString)
  | none => .ok names

end FileSystem
end ContractDoc
