import ContractDoc.Cli.Run

/-!
# The command

The command reads what a request needs from disk into a file system value, runs,
and puts the results where they belong.
-/

namespace ContractDoc
namespace Cli

/-- Whether there is a directory at a place on disk. -/
def isDirectoryOnDisk (place : List String) : IO Bool := do
  try (← IO.FS.realPath (Path.ofPlace place).toString).isDir catch _ => return false

/-- Notes that there is no access to a place. -/
def close (files : FileSystem) (place : List String) : FileSystem :=
  { files with closed := place :: files.closed }

/-- Loads a file from disk, if there is one. -/
def loadFile (files : FileSystem) (place : List String) : IO FileSystem := do
  try
    return files.addFile place (← IO.FS.readBinFile (Path.ofPlace place).toString)
  catch
    | .permissionDenied .. => return close (files.addFile place .empty) place
    | _ => return files

/-- The entries of a directory on disk, if there is access to it. -/
def entriesOnDisk? (place : List String) : IO (Option (Array IO.FS.DirEntry)) := do
  try
    return some (← (← IO.FS.realPath (Path.ofPlace place).toString).readDir)
  catch _ => return none

/-- Loads all that is found below a directory on disk.  Only source files are
read; of the others it is known that they are there. -/
partial def loadTree (files : FileSystem) (place : List String) : IO FileSystem := do
  let mut files := files.addDirectory place
  let some entries ← entriesOnDisk? place | return close files place
  for entry in entries do
    let inner := place ++ [entry.fileName]
    if ← isDirectoryOnDisk inner then
      files ← loadTree files inner
    else if entry.fileName.endsWith sourceExtension then
      files ← loadFile files inner
    else
      files := files.addFile inner .empty
  return files

/-- Loads the file or directory at a place, and the directories on the way. -/
def load (files : FileSystem) (place : List String) : IO FileSystem := do
  if ← isDirectoryOnDisk place then loadTree files place else loadFile files place

/-- The places at which the imports of a source file may be found. -/
def importPlaces (files : FileSystem) (includePaths : List Path) (place : List String)
    (contents : ByteArray) : List (List String) :=
  match parse ((String.fromUTF8? contents).getD "") with
  | .error _ => []
  | .ok tree =>
      let directory := Path.ofPlace place.dropLast
      let dependencies := directory.upwards.map (·.join ⟨"", [Import.dependencyDirectory]⟩)
      let bases := directory :: includePaths ++ dependencies
      tree.imports.flatMap fun decl =>
        bases.map fun base => (base.join (Path.ofString decl.path)).place files.current

/-- Loads the files that the loaded source files import, until there are no more
of them. -/
partial def loadImports (files : FileSystem) (includePaths : List Path) :
    IO FileSystem := do
  let places := files.entries.flatMap fun (place, node) =>
    match node with
    | .directory => []
    | .file contents => importPlaces files includePaths place contents
  let mut extended := files
  for place in places.eraseDups do
    if !Entries.has place extended.entries then
      extended ← loadFile extended place
  if extended.entries.length = files.entries.length then return extended
  else loadImports extended includePaths

/-- Loads what a request needs. -/
def loadFor (request : Request) (current : List String) : IO FileSystem := do
  let mut files := { FileSystem.empty.addDirectory current with current }
  for path in request.paths do
    files ← load files ((Path.ofString path).place current)
  files ← loadImports files ((request.includePaths.filterMap id).map Path.ofString)
  if let some output := nonempty? request.output then
    for place in FileSystem.placesTo ((Path.ofString output).place current) do
      if ← isDirectoryOnDisk place then files := files.addDirectory place
  return files

/-- Writes the output file to disk if a run has changed it. -/
def saveOutput (request : Request) (before after : FileSystem) : IO Unit := do
  if let some output := nonempty? request.output then
    let place := (Path.ofString output).place after.current
    match before.node? place, after.node? place with
    | some (.file old), some (.file new) =>
        if old.data != new.data then IO.FS.writeBinFile (Path.ofPlace place).toString new
    | _, some (.file new) => IO.FS.writeBinFile (Path.ofPlace place).toString new
    | _, _ => return

/-- The wording of a crash. -/
def Crash.message : Crash → String
  | failure cause => cause.message
  | summary .wrongForm => "A part of a document has the wrong form"
  | summary .noContainer => "A part of a document is no container"
  | summary (.missingEntry key) => s!"A part of a document has no entry '{key}'"
  | output error => error.message
  | blankIncludePath => "An include path is blank"

/-- Runs the command on the real file system. -/
def runOnDisk (arguments : List String) : IO UInt32 := do
  let current := (Path.ofString (← IO.currentDir).toString).parts
  let request := (parseArguments arguments).toOption
  let files ← match request with
    | some request => loadFor request current
    | none => pure .empty
  let outcome := run Traversal.maxDepth files true arguments
  IO.print outcome.stdout
  IO.eprint outcome.stderr
  match outcome.exit with
  | .ok code =>
      if let some request := request then saveOutput request files outcome.files
      return UInt32.ofNat code
  | .error crash =>
      IO.eprintln crash.message
      return 1

end Cli
end ContractDoc

/-- The entry point of the command. -/
def main (arguments : List String) : IO UInt32 :=
  ContractDoc.Cli.runOnDisk arguments
