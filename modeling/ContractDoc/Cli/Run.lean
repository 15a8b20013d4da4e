import ContractDoc.Cli.Arguments
import ContractDoc.Cli.Usage
import ContractDoc.File.Sources
import ContractDoc.Import.Disk
import ContractDoc.Model.Document
import ContractDoc.Value.Output
import ContractDoc.Value.Summary

/-!
# Running the command

A run reads source files from a file system and writes the documents of their
contracts.  A file that cannot be documented is reported and passed over; the
run then ends with exit code one.  Parents are followed at most `maxDepth` levels up,
as far as the stack of the process goes.
-/

namespace ContractDoc
namespace Cli

/-- What ends a run before its time. -/
inductive Crash where
  | failure (cause : Failure)
  | summary (error : Summary.Error)
  | output (error : Output.Error)
  /-- An include path is left blank. -/
  | blankIncludePath
  deriving DecidableEq, Repr

/-- What a run leaves behind. -/
structure Outcome where
  stdout : String
  stderr : String
  files : FileSystem
  /-- The exit code, unless the run has crashed. -/
  exit : Except Crash Nat

/-- Whether a failure concerns one file only, so that the run goes on. -/
def isReported : Failure → Bool
  | .comment _ | .tooDeep | .file (.undecodable _) | .file .nullByte => false
  | _ => true

/-- The lines of notices on the error output. -/
def noticeLines (verbose : Bool) (notices : List Notice) : String :=
  "".intercalate ((notices.filter fun notice => verbose || notice.level = .warning).map
    fun notice => s!"{notice.level.label} {notice.component}: {notice.message}\n")

/-- The document of the contract in a source file, and the notices on the way. -/
def documentFile (maxDepth : Nat) (files : FileSystem) (includePaths : List Path)
    (request : Request) (path : Path) : Except Failure Document × List Notice :=
  match Subject.ofFile files path request.contract with
  | .error error => (.error (.file error), [])
  | .ok subject =>
      let (result, traversal) :=
        (Traversal.document (Import.disk files includePaths) maxDepth .root none).run.run
          (.start subject (some request.merges))
      (result, traversal.notices)

/-- What is known in the middle of a run. -/
structure State where
  stderr : String
  /-- The documents by the paths of their files. -/
  documents : Entries String Value
  failed : Nat

/-- Documents one file. -/
def step (maxDepth : Nat) (files : FileSystem) (includePaths : List Path) (request : Request)
    (state : State) (path : Path) : Except (Crash × String) State :=
  let name := path.toString
  let progress := if request.quiet then "" else s!"Parsing {name}...\n"
  let (result, notices) := documentFile maxDepth files includePaths request path
  let stderr := state.stderr ++ progress ++ noticeLines request.verbose notices
  match result with
  | .ok document =>
      .ok { state with
        stderr, documents := Entries.insert name document.toValue state.documents }
  | .error failure =>
      if isReported failure then
        .ok { state with
          stderr := stderr ++ s!"Error parsing {name}: {failure.message}\n"
          failed := state.failed + 1 }
      else .error (.failure failure, stderr)

/-- A line of sixty equals signs. -/
def rule : String := String.ofList (List.replicate 60 '=')

/-- The summary of a run. -/
def summaryText (fileCount : Nat) (documents : Entries String Value) :
    Except Summary.Error String := do
  let summaries ← documents.mapM fun (_, document) => Summary.write document
  return "\n".intercalate ([
    "\n" ++ rule,
    "Solidity Documentation Structure",
    rule,
    s!"Total Files: {fileCount}",
    s!"Documented Contracts: {documents.length}"] ++ summaries)

/-- The text of the documents in the chosen format, which is YAML if it is left
blank. -/
def outputText (yamlAvailable : Bool) (format : Option Format) (fileCount : Nat)
    (documents : Entries String Value) : Except Crash String :=
  match format with
  | some .summary => (summaryText fileCount documents).mapError Crash.summary
  | some .json => .ok (Output.json true (.map documents))
  | some .yaml | none => (Output.yaml yamlAvailable (.map documents)).mapError Crash.output

/-- Documents the files that were found. -/
def documentAll (maxDepth : Nat) (files : FileSystem) (yamlAvailable : Bool)
    (includePaths : List Path) (request : Request) (paths : List Path) (stderr : String) :
    Outcome :=
  match paths.foldlM (step maxDepth files includePaths request) ⟨stderr, [], 0⟩ with
  | .error (crash, stderr) => ⟨"", stderr, files, .error crash⟩
  | .ok state =>
      let exit := if state.failed = 0 then 0 else 1
      let text := outputText yamlAvailable request.format paths.length state.documents
      match text, nonempty? request.output with
      | .error crash, _ => ⟨"", state.stderr, files, .error crash⟩
      | .ok text, none => ⟨text ++ "\n", state.stderr, files, .ok exit⟩
      | .ok text, some output =>
          match files.writeText (Path.ofString output) text with
          | .error error => ⟨"", state.stderr, files, .error (.failure (.file error))⟩
          | .ok files =>
              let note := if request.quiet then "" else s!"\nOutput written to {output}\n"
              ⟨"", state.stderr ++ note, files, .ok exit⟩

/-- Carries out a request. -/
def execute (maxDepth : Nat) (files : FileSystem) (yamlAvailable : Bool) (request : Request) :
    Outcome :=
  if request.format = some .yaml ∧ !yamlAvailable then
    ⟨"", "Error: YAML format requires pyyaml: pip install pyyaml\n", files, .ok 1⟩
  else
    match findSources files request.paths with
    | (.error error, warnings) => ⟨"", warnings, files, .error (.failure (.file error))⟩
    | (.ok paths, warnings) =>
        if paths.isEmpty then
          ⟨"", warnings ++ "Error: No Solidity files found\n", files, .ok 1⟩
        else
          let count := if request.quiet then "" else s!"Found {paths.length} Solidity file(s)\n"
          let stderr := warnings ++ count
          match request.includePaths.mapM id with
          | none => ⟨"", stderr, files, .error .blankIncludePath⟩
          | some includePaths =>
              documentAll maxDepth files yamlAvailable (includePaths.map Path.ofString) request
                paths stderr

/-- Runs the command. -/
def run (maxDepth : Nat) (files : FileSystem) (yamlAvailable : Bool) (arguments : List String) :
    Outcome :=
  match parseArguments arguments with
  | .error .help => ⟨help, "", files, .ok 0⟩
  | .error refusal => ⟨"", refusalText refusal.message, files, .ok 2⟩
  | .ok request => execute maxDepth files yamlAvailable request

end Cli
end ContractDoc
