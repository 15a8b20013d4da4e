import ContractDoc.File.System
import ContractDoc.Model.Subject
import ContractDoc.Text.Segment

/-!
# Source files

Finding the source files of a project and reading them.  Test files and the
files of dependencies are passed over in directories, but not when they are
named outright.
-/

namespace ContractDoc

open Text

/-- The extension of source files. -/
def sourceExtension : String := ".sol"

/-- Whether a file found in a directory is passed over. -/
def isSkippedFile (path : Path) : Bool :=
  endsWith path.name.toList ".t.sol".toList || "Test".toList.isPrefixOf path.name.toList ||
    ["node_modules", "test", "tests"].any path.components.contains

/-- The source files that a path stands for, or a warning.  It is an error if the path cannot
be followed, or if a directory below it cannot be listed. -/
def sourcesAt (files : FileSystem) (path : Path) :
    Except FileError (Except String (List Path)) := do
  match ← files.probe path with
  | none => return .error s!"Warning: Path not found: {path.toString}\n"
  | some (.file _) =>
      if path.extension = sourceExtension then return .ok [path]
      else return .error s!"Warning: Not a Solidity file: {path.toString}\n"
  | some .directory =>
      let names ← files.list path (path.place files.current)
      let found := names.filter fun names =>
        endsWith (names.getLastD "").toList sourceExtension.toList
      return .ok ((found.map fun names => path.join ⟨"", names⟩).filter (!isSkippedFile ·))

/-- The source files that paths stand for, and the warnings on the way.  The search ends with
the first error. -/
def findSources (files : FileSystem) : List String → Except FileError (List Path) × String
  | [] => (.ok [], "")
  | path :: paths =>
      match sourcesAt files (Path.ofString path) with
      | .error error => (.error error, "")
      | .ok (.error warning) =>
          let (found, warnings) := findSources files paths
          (found, warning ++ warnings)
      | .ok (.ok sources) =>
          let (found, warnings) := findSources files paths
          (found.map (sources ++ ·), warnings)

/-- The contract in a source file. -/
def Subject.ofFile (files : FileSystem) (path : Path) (contractName : Option String) :
    Except FileError Subject := do
  if !(← files.pathExists path) then throw (.noSource path.toString)
  let source ← files.readText path
  return ⟨source, some (path.resolve files.current).toString, contractName, false⟩

end ContractDoc
