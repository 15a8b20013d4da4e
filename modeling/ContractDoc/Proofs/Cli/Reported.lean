import ContractDoc.Cli.Run
import ContractDoc.Proofs.File.Sources
import ContractDoc.Proofs.Import.Disk
import ContractDoc.Proofs.Traversal.Result

/-!
# Which failures are reported

Documenting a file may fail for many reasons, and almost all of them are reported.  If
the files that are read hold texts, only two are not: a comment that cannot be divided
into tags, and a chain of parents beyond the limit.
-/

namespace ContractDoc

/-- If there is a file at a path, it holds a text. -/
def FileSystem.Decodes (files : FileSystem) (path : Path) : Prop :=
  ∀ contents, files.lookUp path = .ok (.file contents) →
    (String.fromUTF8? contents).isSome

section Texts

variable {files : FileSystem} {path : Path}

theorem fromUTF8?_toUTF8 (text : String) : String.fromUTF8? text.toUTF8 = some text :=
  dif_pos text.isValidUTF8

variable {text : String}

theorem FileSystem.decodes_of_toUTF8
    (lookedUp : files.lookUp path = .ok (.file text.toUTF8)) :
    files.Decodes path := by
  intro contents found
  obtain rfl := FileNode.file.inj (Except.ok.inj (lookedUp.symm.trans found))
  rw [fromUTF8?_toUTF8]
  rfl

/-- A file is not opened if it cannot be told whether it exists, or if it does not; otherwise
it is read. -/
theorem Subject.ofFile_eq (contractName : Option String) :
    ofFile files path contractName =
      match files.probe path with
      | .error error => .error error
      | .ok none => .error (.noSource path.toString)
      | .ok (some _) => (files.readText path).map fun source =>
          ⟨source, some (path.resolve files.current).toString, contractName, false⟩ := by
  unfold ofFile FileSystem.pathExists
  rcases files.probe path with error | _ | node
  · rfl
  · rfl
  · rfl

/-- A text without carriage returns is opened as it is. -/
theorem Subject.ofFile_of_toUTF8
    (noNull : path.hasNullByte = false)
    (opened : files.openAt path = .ok (.file text.toUTF8))
    (normal : FileSystem.normalizeLineEnds text.toList = text.toList)
    (contractName : Option String) :
    ofFile files path contractName =
      .ok ⟨text, some (path.resolve files.current).toString, contractName, false⟩ := by
  have told := FileSystem.probe_eq_some_iff.mpr ⟨noNull, FileSystem.lookUp_of_openAt opened⟩
  rw [ofFile_eq, told, FileSystem.readText_of_openAt opened, fromUTF8?_toUTF8]
  dsimp only
  rw [normal, String.ofList_toList]
  rfl

end Texts

namespace Cli

variable
  {maxDepth : Nat}
  {files : FileSystem}
  {includePaths : List Path}
  {request : Request}
  {path : Path}
  {failure : Failure}

/-- A file that holds a text is read, or the failure is reported. -/
theorem isReported_of_readText
    {error : FileError}
    (decodes : files.Decodes path)
    (fails : files.readText path = .error error) :
    isReported (.file error) = true := by
  cases opened : files.openAt path with
  | error obstacle =>
      rw [FileSystem.readText_of_openAt_error opened] at fails
      rw [← Except.error.inj fails]
      cases obstacle <;> rfl
  | ok node =>
      cases node with
      | directory =>
          unfold FileSystem.readText at fails
          rw [opened] at fails
          rw [← Except.error.inj fails]
          rfl
      | file contents =>
          have found := FileSystem.lookUp_of_openAt opened
          obtain ⟨text, text_eq⟩ := Option.isSome_iff_exists.mp (decodes contents found)
          rw [FileSystem.readText_of_openAt opened, text_eq] at fails
          cases fails

/-- It is reported if it cannot be told what a path leads to. -/
theorem isReported_of_probe
    {error : FileError}
    (fails : files.probe path = .error error) :
    isReported (.file error) = true := by
  obtain ⟨-, ⟨-, rfl⟩ | ⟨-, rfl⟩⟩ := FileSystem.probe_eq_error_iff.mp fails
  · rfl
  · rfl

/-! ## Imports from files -/

/-- A file path is the text of a place whose names files can have. -/
def IsFilePlace (filePath : Option String) : Prop :=
  ∃ place, (∀ name ∈ place, IsFileName name) ∧
    filePath = some (Path.ofPlace place).toString

/-- Resolving a path to what is found gives a file place. -/
theorem isFilePlace_of_lookUp
    {node : FileNode}
    (wellNamed : files.WellNamed)
    (found : files.lookUp path = .ok node) :
    IsFilePlace (some (path.resolve files.current).toString) :=
  ⟨path.place files.current, wellNamed.of_lookUp found, rfl⟩

/-- The directory of a file place holds no null byte. -/
theorem IsFilePlace.hasNullByte_baseDirectory
    {filePath : Option String}
    (isFilePlace : IsFilePlace filePath)
    (files : FileSystem) :
    (Import.baseDirectory files filePath).hasNullByte = false := by
  obtain ⟨place, plain, rfl⟩ := isFilePlace
  have nonempty : (Path.ofPlace place).toString ≠ "" := by
    intro empty
    have slash : (Path.ofPlace place).toString = "/" ++ "/".intercalate place := rfl
    rw [slash] at empty
    have chars := congrArg String.toList empty
    rw [String.toList_append] at chars
    cases chars
  have kept : nonempty? (some (Path.ofPlace place).toString) =
      some (Path.ofPlace place).toString := by
    simp [nonempty?, nonempty]
  unfold Import.baseDirectory
  rw [kept]
  dsimp only
  rw [(Path.regular_ofPlace plain).ofString_toString]
  exact Path.hasNullByte_eq_false fun name member =>
    plain name (List.dropLast_subset _ member)

/-- The ways of resolving an import: the search fails, no candidate is a file, or one is
read. -/
inductive DiskAnswer
    (files : FileSystem)
    (includePaths : List Path)
    (importPath : String)
    (importer : Option String) : Resolution → Prop
  | refused {error : FileError}
      (fails : Import.search files includePaths importPath importer = .error error) :
      DiskAnswer files includePaths importPath importer ⟨[], .error (.file error)⟩
  | missing :
      DiskAnswer files includePaths importPath importer (.unresolved importPath importer)
  | unreadable {found : Path} {node : FileNode} {error : FileError}
      (lookedUp : files.lookUp found = .ok node)
      (fails : files.readText (found.resolve files.current) = .error error) :
      DiskAnswer files includePaths importPath importer
        ⟨[.resolvedImport importPath (found.resolve files.current).toString],
          .error (.file error)⟩
  | read {found : Path} {node : FileNode} {source : String}
      (lookedUp : files.lookUp found = .ok node)
      (reads : files.readText (found.resolve files.current) = .ok source) :
      DiskAnswer files includePaths importPath importer
        ⟨[.resolvedImport importPath (found.resolve files.current).toString],
          .ok ⟨source, (found.resolve files.current).toString⟩⟩

/-- Resolving an import is one of its ways. -/
theorem diskAnswer
    (files : FileSystem)
    (includePaths : List Path)
    (importPath : String)
    (importer : Option String) :
    DiskAnswer files includePaths importPath importer
      (Import.disk files includePaths importPath importer) := by
  unfold Import.disk
  split
  · rename_i error fails
    exact .refused fails
  · exact .missing
  · rename_i found searched
    obtain ⟨contents, told⟩ := Import.probe_of_search searched
    have lookedUp := (FileSystem.probe_eq_some_iff.mp told).2
    unfold Import.answer
    dsimp only
    cases reads : files.readText (found.resolve files.current) with
    | error error => exact .unreadable lookedUp reads
    | ok source => exact .read lookedUp reads

/-- Imports are resolved to file places. -/
theorem isFilePlace_of_disk
    {importPath : String}
    {importer : Option String}
    {resolved : ResolvedImport}
    (wellNamed : files.WellNamed)
    (answer : (Import.disk files includePaths importPath importer).result = .ok resolved) :
    IsFilePlace (some resolved.path) := by
  have answers := diskAnswer files includePaths importPath importer
  generalize Import.disk files includePaths importPath importer = resolution at answer answers
  cases answers with
  | refused fails => cases answer
  | missing => cases answer
  | unreadable lookedUp fails => cases answer
  | read lookedUp reads =>
      rw [← Except.ok.inj answer]
      exact isFilePlace_of_lookUp wellNamed lookedUp

/-- A failure to resolve an import is reported if the file that it names holds a text. -/
theorem isReported_of_disk
    {importPath : String}
    {importer : Option String}
    (wellNamed : files.WellNamed)
    (isFilePlace : IsFilePlace importer)
    (decodes : ∀ imported, .resolvedImport importPath imported ∈
      (Import.disk files includePaths importPath importer).notices →
        files.Decodes (.ofString imported))
    (fails : (Import.disk files includePaths importPath importer).result = .error failure) :
    isReported failure = true := by
  have answers := diskAnswer files includePaths importPath importer
  generalize Import.disk files includePaths importPath importer = resolution
    at fails decodes answers
  cases answers with
  | refused refused =>
      rw [← Except.error.inj fails]
      rcases Import.error_of_search refused with null | ⟨path, told⟩
      · rw [isFilePlace.hasNullByte_baseDirectory files] at null
        cases null
      · exact isReported_of_probe told
  | missing =>
      rw [← Except.error.inj fails]
      rfl
  | read lookedUp reads => cases fails
  | @unreadable found node error lookedUp unread =>
      have regular : (found.resolve files.current).Regular :=
        Path.regular_ofPlace (wellNamed.of_lookUp lookedUp)
      have holdsText := decodes _ (List.mem_singleton_self _)
      rw [regular.ofString_toString] at holdsText
      rw [← Except.error.inj fails]
      exact isReported_of_readText holdsText unread

/-! ## Documenting a file -/

/-- The file at a path holds a text, and so do all files that are imported on the way to
its document. -/
structure Readable
    (maxDepth : Nat)
    (files : FileSystem)
    (includePaths : List Path)
    (request : Request)
    (path : Path) : Prop where
  decodes : files.Decodes path
  decodes_imported : ∀ importPath imported,
    .resolvedImport importPath imported ∈
      (documentFile maxDepth files includePaths request path).2 →
    files.Decodes (.ofString imported)

/-- A source file is documented by a traversal from its contract. -/
theorem documentFile_eq
    {subject : Subject}
    (opened : Subject.ofFile files path request.contract = .ok subject) :
    documentFile maxDepth files includePaths request path =
      ((outcome (Traversal.document (Import.disk files includePaths) maxDepth .root none)
        (.start subject (some request.merges))).1,
      (outcome (Traversal.document (Import.disk files includePaths) maxDepth .root none)
        (.start subject (some request.merges))).2.notices) := by
  unfold documentFile
  rw [opened]
  rfl

/-- The contract in a file has a file place. -/
theorem isFilePlace_of_ofFile
    {contractName : Option String}
    {subject : Subject}
    (wellNamed : files.WellNamed)
    (opened : Subject.ofFile files path contractName = .ok subject) :
    IsFilePlace subject.filePath := by
  rw [Subject.ofFile_eq] at opened
  split at opened
  · cases opened
  · cases opened
  · next told =>
      obtain ⟨source, _, rfl⟩ := map_eq_ok.mp opened
      exact isFilePlace_of_lookUp wellNamed (FileSystem.probe_eq_some_iff.mp told).2

/-- A failure to open a file that holds a text is reported. -/
theorem isReported_of_ofFile
    {contractName : Option String}
    {error : FileError}
    (decodes : files.Decodes path)
    (fails : Subject.ofFile files path contractName = .error error) :
    isReported (.file error) = true := by
  rw [Subject.ofFile_eq] at fails
  split at fails
  · next told =>
      rw [← Except.error.inj fails]
      exact isReported_of_probe told
  · rw [← Except.error.inj fails]
    rfl
  · cases reads : files.readText path with
    | error other =>
        rw [reads] at fails
        rw [← Except.error.inj fails]
        exact isReported_of_readText decodes reads
    | ok source =>
        rw [reads] at fails
        cases fails

/-- The documents of files are regular. -/
theorem regular_of_documentFile
    {document : Document}
    (returns : (documentFile maxDepth files includePaths request path).1 = .ok document) :
    document.Regular := by
  cases opened : Subject.ofFile files path request.contract with
  | error error =>
      unfold documentFile at returns
      rw [opened] at returns
      cases returns
  | ok subject =>
      rw [documentFile_eq opened] at returns
      exact (Traversal.Sound.start subject _).regular_of_document (Traversal.has_root _)
        (Prod.ext returns rfl)

/-- If what is read holds texts, a failure that is not reported is due to a comment or to the
limit.  The file that asks for an import is the one that was opened, or the resolver has found
it. -/
theorem comment_or_tooDeep_of_documentFile
    (wellNamed : files.WellNamed)
    (readable : Readable maxDepth files includePaths request path)
    (fails : (documentFile maxDepth files includePaths request path).1 = .error failure)
    (unreported : isReported failure = false) :
    (∃ error, failure = .comment error) ∨ failure = .tooDeep := by
  cases opened : Subject.ofFile files path request.contract with
  | error error =>
      unfold documentFile at fails
      rw [opened] at fails
      obtain rfl := Except.error.inj fails
      rw [isReported_of_ofFile readable.decodes opened] at unreported
      cases unreported
  | ok subject =>
      have imports := readable.decodes_imported
      rw [documentFile_eq opened] at fails imports
      generalize ended : outcome (Traversal.document (Import.disk files includePaths) maxDepth
        .root none) (.start subject (some request.merges)) = result at fails imports
      obtain ⟨result, after⟩ := result
      obtain rfl : result = .error failure := fails
      have sound := Traversal.Sound.start subject (some request.merges)
      cases sound.cause_of_document (Traversal.has_root _) ended with
      | limit => exact .inr rfl
      | circle lineage => cases unreported
      | source ofSource =>
          cases ofSource with
          | comment error => exact .inl ⟨error, rfl⟩
          | parse error => cases unreported
          | missingPragma source => cases unreported
          | noContract source => cases unreported
          | contractNotFound name source => cases unreported
      | @resolution _ ref importPath present answer reported =>
          have isFilePlace : IsFilePlace (after.model ref).subject.filePath := by
            obtain ⟨questions, passage, _⟩ := sound.passage_document
              (Import.disk files includePaths) maxDepth none (Traversal.has_root _)
            rw [ended] at passage
            cases ref with
            | root =>
                rw [passage.grows.subject_eq (Traversal.has_root _)]
                exact isFilePlace_of_ofFile wellNamed opened
            | ancestor key =>
                have answered := (Traversal.Answered.start subject _).passage passage
                obtain ⟨_, _, resolved, given, _, subject_eq⟩ := answered.obtained key present
                rw [subject_eq]
                exact isFilePlace_of_disk wellNamed given
          have isReported_eq := isReported_of_disk wellNamed isFilePlace
            (fun imported listed => imports importPath imported (reported listed)) answer
          rw [isReported_eq] at unreported
          cases unreported

end Cli
end ContractDoc
