import ContractDoc.File.System
import ContractDoc.Import.Resolver

/-!
# Imports from a file system

A path that starts with a dot is taken from the directory of the importing file.
Any other path is also looked for in the include paths and in the directories
for dependencies, from the importing file up to the root; the directory of the
importing file has to be a possible one then.  The search ends with an error where it
cannot be told what a path leads to.
-/

namespace ContractDoc
namespace Import

/-- The directory for dependencies. -/
def dependencyDirectory : String := "node_modules"

/-- The directory of the importing file, or the current one. -/
def baseDirectory (files : FileSystem) (importer : Option String) : Path :=
  match nonempty? importer with
  | some file => (Path.ofString file).parent
  | none => .ofPlace files.current

/-- The paths of a list that lead to directories. -/
def directoriesAmong (files : FileSystem) : List Path → Except FileError (List Path)
  | [] => .ok []
  | path :: paths => do
      let isThere ← files.isDirectory path
      let others ← directoriesAmong files paths
      return if isThere then path :: others else others

/-- The directories for dependencies that exist in a directory and above it, nearest
first. -/
def dependencyDirectories (files : FileSystem) (directory : Path) :
    Except FileError (List Path) :=
  directoriesAmong files (directory.upwards.map (·.join ⟨"", [dependencyDirectory]⟩))

/-- Whether an import path is relative to the importing file only. -/
def isRelative (importPath : String) : Bool :=
  "./".toList.isPrefixOf importPath.toList || "../".toList.isPrefixOf importPath.toList

/-- The directories from which an import is looked for, in order. -/
def bases (files : FileSystem) (includePaths : List Path) (importPath : String)
    (importer : Option String) : Except FileError (List Path) :=
  let base := baseDirectory files importer
  if isRelative importPath then .ok [base]
  else
    (dependencyDirectories files (base.resolve files.current)).map fun dependencies =>
      base :: includePaths ++ dependencies

/-- The paths at which an import is looked for, in order. -/
def candidates (files : FileSystem) (includePaths : List Path) (importPath : String)
    (importer : Option String) : Except FileError (List Path) :=
  (bases files includePaths importPath importer).map fun bases =>
    bases.map (·.join (Path.ofString importPath))

/-- The first path of a list that leads to a file. -/
def firstFile? (files : FileSystem) : List Path → Except FileError (Option Path)
  | [] => .ok none
  | path :: paths => do
      if ← files.isFile path then return some path else firstFile? files paths

/-- The path at which an import is found, if there is one. -/
def search (files : FileSystem) (includePaths : List Path) (importPath : String)
    (importer : Option String) : Except FileError (Option Path) :=
  if !isRelative importPath && (baseDirectory files importer).hasNullByte then
    .error .nullByte
  else do firstFile? files (← candidates files includePaths importPath importer)

/-- The answer to an import that is found at a path. -/
def answer (files : FileSystem) (importPath : String) (found : Path) : Resolution :=
  let path := found.resolve files.current
  ⟨[.resolvedImport importPath path.toString],
    (files.readText path).mapError Failure.file |>.map fun source => ⟨source, path.toString⟩⟩

/-- Resolves imports to the first candidate that is a file. -/
def disk (files : FileSystem) (includePaths : List Path) : ImportResolver :=
  fun importPath importer =>
    match search files includePaths importPath importer with
    | .error error => ⟨[], .error (.file error)⟩
    | .ok none => .unresolved importPath importer
    | .ok (some found) => answer files importPath found

end Import
end ContractDoc
