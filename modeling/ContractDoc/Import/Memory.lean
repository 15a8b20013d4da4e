import ContractDoc.Entries
import ContractDoc.File.Path
import ContractDoc.Import.Resolver

/-!
# Imports from memory

Two resolvers that look imports up in a table of sources instead of a file
system.  The one takes the import path as it is, the other one goes from the
directory of the importing file.
-/

namespace ContractDoc
namespace Import

open Text

/-- A source text that may name its own canonical path. -/
structure StoredSource where
  source : String
  path : Option String
  deriving DecidableEq, Repr

/-- Looks up a key, whose source has the path `path` unless it names one. -/
def lookUp (sources : Entries String StoredSource) (key path : String)
    (importPath : String) (importer : Option String) : Resolution :=
  match Entries.get? key sources with
  | none => .unresolved importPath importer
  | some stored => ⟨[], .ok ⟨stored.source, stored.path.getD path⟩⟩

/-- Looks imports up as they are written.  Their canonical paths lie in one
directory. -/
def flat (sources : Entries String StoredSource) : ImportResolver :=
  fun importPath importer =>
    let name := String.ofList (afterLast '/' importPath.toList)
    lookUp sources importPath ("/virtual/" ++ name) importPath importer

/-- The names of a path without the double dots that lead up from a name.  In an
absolute path those at the top are dropped. -/
def simplify (isAbsolute : Bool) (names : List String) : List String :=
  names.foldl
    (fun front name =>
      if name ≠ ".." then front ++ [name]
      else
        match front.getLast? with
        | none => if isAbsolute then [] else [name]
        | some last => if last = ".." then front ++ [name] else front.dropLast)
    []

/-- A path text in its simplest form. -/
def normalized (text : String) : String :=
  let path := Path.ofString text
  Path.toString ⟨path.root, simplify path.isAbsolute path.parts⟩

/-- A path text that continues a directory; an absolute one replaces it. -/
def joined (directory text : String) : String :=
  if text.startsWith "/" then text
  else if directory = "" ∨ directory.endsWith "/" then directory ++ text
  else directory ++ "/" ++ text

/-- Looks imports up by their paths from the directory of the importing file. -/
def relative (sources : Entries String StoredSource) : ImportResolver :=
  fun importPath importer =>
    let directory := match nonempty? importer with
      | none => "/"
      | some file => directoryOf file
    let key := normalized (joined directory importPath)
    lookUp sources key key importPath importer

end Import
end ContractDoc
