import ContractDoc.Proofs.Cli.Reported

/-!
# What a run writes

A run passes the found files in order.  The documents that it keeps are those of the
files that can be documented, whatever the other ones hold, and it counts the failures
that it reports.  A failure that is not reported ends the run, and so does a summary
that cannot be made; the documents of all files are lost then.  No file is passed at all if
one of the arguments cannot be searched.
-/

namespace ContractDoc
namespace Cli

/-! ## Passing the files -/

/-- The documents of the files that can be documented, by the texts of their paths. -/
def documentsOf
    (results : Path → Except Failure Document)
    (paths : List Path) : Entries String Value :=
  Entries.ofList (paths.filterMap fun path =>
    (results path).toOption.map fun document => (path.toString, document.toValue))

section Passing

variable
  {results : Path → Except Failure Document}
  {done paths : List Path}
  {path : Path}

theorem documentsOf_append_ok
    {document : Document}
    (returns : results path = .ok document) :
    documentsOf results (done ++ [path]) =
      Entries.insert path.toString document.toValue (documentsOf results done) := by
  simp [documentsOf, Entries.ofList, Entries.update, returns, Except.toOption]

theorem documentsOf_append_error
    {failure : Failure}
    (fails : results path = .error failure) :
    documentsOf results (done ++ [path]) = documentsOf results done := by
  simp [documentsOf, fails, Except.toOption]

/-- Each document is found under the path of its file, and nothing else is found: two paths
with one text are the same. -/
theorem get?_documentsOf
    (regular : ∀ path ∈ paths, path.Regular)
    (name : String)
    (value : Value) :
    Entries.get? name (documentsOf results paths) = some value ↔
      ∃ path ∈ paths, path.toString = name ∧
        ∃ document, results path = .ok document ∧ value = document.toValue := by
  have listed_iff : ∀ name value, (name, value) ∈ paths.filterMap (fun path =>
      (results path).toOption.map fun document => (path.toString, document.toValue)) ↔
        ∃ path ∈ paths, path.toString = name ∧
          ∃ document, results path = .ok document ∧ value = document.toValue := by
    intro name value
    rw [List.mem_filterMap]
    refine exists_congr fun path => and_congr_right fun _ => ?_
    cases results path with
    | error failure => simp [Except.toOption]
    | ok document => simp [Except.toOption, eq_comm]
  rw [documentsOf, Entries.get?_ofList_eq_some_iff, listed_iff]
  intro name value other valueListed otherListed
  obtain ⟨path, member, path_eq, document, returns, rfl⟩ := (listed_iff _ _).mp valueListed
  obtain ⟨otherPath, otherMember, other_eq, otherDocument, otherReturns, rfl⟩ :=
    (listed_iff _ _).mp otherListed
  obtain rfl := (regular path member).eq_of_toString_eq (regular otherPath otherMember)
    (path_eq.trans other_eq.symm)
  rw [Except.ok.inj (returns.symm.trans otherReturns)]

end Passing

/-- What a run knows after it has passed some files. -/
structure Accounts
    (results : Path → Except Failure Document)
    (done : List Path)
    (state : State) : Prop where
  documents_eq : state.documents = documentsOf results done
  failed_eq_zero_iff : state.failed = 0 ↔ ∀ path ∈ done, ∃ document, results path = .ok document
  reported : ∀ path ∈ done, ∀ failure, results path = .error failure → isReported failure = true

section Running

variable
  {maxDepth : Nat}
  {files : FileSystem}
  {includePaths : List Path}
  {request : Request}

/-- The results for single files. -/
def resultOf
    (maxDepth : Nat)
    (files : FileSystem)
    (includePaths : List Path)
    (request : Request)
    (path : Path) : Except Failure Document :=
  (documentFile maxDepth files includePaths request path).1

/-- One more file is taken into account, or ends the run. -/
theorem Accounts.step
    {done : List Path}
    {state : State}
    (accounts : Accounts (resultOf maxDepth files includePaths request) done state)
    (path : Path) :
    (∃ next, Cli.step maxDepth files includePaths request state path = .ok next ∧
      Accounts (resultOf maxDepth files includePaths request) (done ++ [path]) next) ∨
    ∃ failure stderr, resultOf maxDepth files includePaths request path = .error failure ∧
      isReported failure = false ∧
        Cli.step maxDepth files includePaths request state path =
          .error (.failure failure, stderr) := by
  unfold Cli.step
  dsimp only
  cases result : (documentFile maxDepth files includePaths request path).1 with
  | ok document =>
      refine .inl ⟨_, rfl, ?_, ?_, ?_⟩
      · rw [documentsOf_append_ok result, ← accounts.documents_eq]
      · rw [List.forall_mem_append, List.forall_mem_singleton]
        exact accounts.failed_eq_zero_iff.trans ⟨fun all => ⟨all, document, result⟩, And.left⟩
      · rw [List.forall_mem_append, List.forall_mem_singleton]
        refine ⟨accounts.reported, ?_⟩
        intro failure fails
        cases result.symm.trans fails
  | error failure =>
      dsimp only
      cases reported : isReported failure with
      | false => exact .inr ⟨failure, _, result, reported, rfl⟩
      | true =>
          refine .inl ⟨_, rfl, ?_, ?_, ?_⟩
          · rw [documentsOf_append_error result, ← accounts.documents_eq]
          · rw [List.forall_mem_append, List.forall_mem_singleton]
            refine ⟨fun zero => absurd zero (Nat.succ_ne_zero _), ?_⟩
            rintro ⟨_, document, returns⟩
            cases result.symm.trans returns
          · rw [List.forall_mem_append, List.forall_mem_singleton]
            refine ⟨accounts.reported, ?_⟩
            intro other fails
            rw [← Except.error.inj (result.symm.trans fails)]
            exact reported

/-- All files are taken into account, or one of them ends the run. -/
theorem Accounts.foldlM
    {done : List Path}
    {state : State}
    (accounts : Accounts (resultOf maxDepth files includePaths request) done state)
    (paths : List Path) :
    (∃ last, paths.foldlM (Cli.step maxDepth files includePaths request) state = .ok last ∧
      Accounts (resultOf maxDepth files includePaths request) (done ++ paths) last) ∨
    ∃ path ∈ paths, ∃ failure stderr,
      resultOf maxDepth files includePaths request path = .error failure ∧
        isReported failure = false ∧
        paths.foldlM (Cli.step maxDepth files includePaths request) state =
          .error (.failure failure, stderr) := by
  induction paths generalizing done state with
  | nil =>
      rw [List.append_nil]
      exact .inl ⟨state, rfl, accounts⟩
  | cons path paths ih =>
      rw [List.foldlM_cons]
      rcases accounts.step path with ⟨next, steps, nextAccounts⟩ |
        ⟨failure, stderr, fails, unreported, breaks⟩
      · rw [steps]
        rcases ih nextAccounts with ⟨last, runs, lastAccounts⟩ |
          ⟨other, member, failure, stderr, fails, unreported, breaks⟩
        · rw [List.append_assoc] at lastAccounts
          exact .inl ⟨last, runs, lastAccounts⟩
        · exact .inr ⟨other, List.mem_cons_of_mem _ member, failure, stderr, fails, unreported,
            breaks⟩
      · rw [breaks]
        exact .inr ⟨path, List.mem_cons_self, failure, stderr, fails, unreported, rfl⟩

end Running

/-! ## Writing the documents -/

section Writing

variable
  {results : Path → Except Failure Document}
  {paths : List Path}

/-- The documents have a text unless it is a summary and a constructor is hidden. -/
theorem exists_outputText_iff
    (regularPaths : ∀ path ∈ paths, path.Regular)
    (regularResults : ∀ path document, results path = .ok document → document.Regular)
    (format : Option Format)
    (fileCount : Nat) :
    (∃ text, outputText true format fileCount (documentsOf results paths) = .ok text) ↔
      (format = some .summary → ∀ path ∈ paths, ∀ document,
        results path = .ok document → ¬document.HidesConstructor) := by
  cases format with
  | none => exact ⟨fun _ => nofun, fun _ => ⟨_, rfl⟩⟩
  | some format =>
      cases format with
      | json => exact ⟨fun _ => nofun, fun _ => ⟨_, rfl⟩⟩
      | yaml => exact ⟨fun _ => nofun, fun _ => ⟨_, rfl⟩⟩
      | summary =>
          have summaries_iff : (∃ text, outputText true (some .summary) fileCount
              (documentsOf results paths) = .ok text) ↔
                ∃ found, (documentsOf results paths).mapM (fun entry => Summary.write entry.2) =
                  .ok found := by
            unfold outputText summaryText
            cases (documentsOf results paths).mapM fun entry => Summary.write entry.2 with
            | error error => exact ⟨nofun, nofun⟩
            | ok found => exact ⟨fun _ => ⟨found, rfl⟩, fun _ => ⟨_, rfl⟩⟩
          rw [summaries_iff, exists_mapM_eq_ok_iff]
          constructor
          · intro written _ path member document returns
            have found := (get?_documentsOf regularPaths path.toString document.toValue).mpr
              ⟨path, member, rfl, document, returns, rfl⟩
            have text := written _ (Entries.mem_of_get? found)
            exact (Summary.exists_write_iff (regularResults path document returns)).mp text
          · intro unhidden entry listed
            have found := Entries.get?_of_mem (Entries.nodup_keys_ofList _) listed
            obtain ⟨path, member, _, document, returns, value_eq⟩ :=
              (get?_documentsOf regularPaths entry.1 entry.2).mp found
            rw [value_eq]
            exact (Summary.exists_write_iff (regularResults path document returns)).mpr
              (unhidden rfl path member document returns)

end Writing

/-! ## The law of runs -/

/-- A file ends the run: one of its comments cannot be divided into tags, its parents are
nested too deeply, or a tag hides its constructor from the summary. -/
def Breaks
    (results : Path → Except Failure Document)
    (format : Option Format)
    (path : Path) : Prop :=
  (∃ error, results path = .error (.comment error)) ∨ results path = .error .tooDeep ∨
    format = some .summary ∧ ∃ document, results path = .ok document ∧ document.HidesConstructor

/-- A run has crashed and written nothing. -/
def Crashes (outcome : Outcome) : Prop :=
  (∃ crash, outcome.exit = .error crash) ∧ outcome.stdout = ""

/-- A run has come to its end: the exit code tells whether a file has failed, and the
documents that are written are those of all other files. -/
structure Completes
    (results : Path → Except Failure Document)
    (format : Option Format)
    (paths : List Path)
    (outcome : Outcome) : Prop where
  exit_eq_zero_or_one : outcome.exit = .ok 0 ∨ outcome.exit = .ok 1
  exit_eq_one_iff : outcome.exit = .ok 1 ↔ ∃ path ∈ paths, ∃ failure, results path = .error failure
  stdout_eq : ∃ text, outputText true format paths.length (documentsOf results paths) = .ok text ∧
    outcome.stdout = text ++ "\n"
  documented_iff : ∀ name value,
    Entries.get? name (documentsOf results paths) = some value ↔
      ∃ path ∈ paths, path.toString = name ∧
        ∃ document, results path = .ok document ∧ value = document.toValue

/-- A count of failures is positive exactly if a file has failed. -/
theorem Accounts.failed_ne_zero_iff
    {results : Path → Except Failure Document}
    {done : List Path}
    {state : State}
    (accounts : Accounts results done state) :
    state.failed ≠ 0 ↔ ∃ path ∈ done, ∃ failure, results path = .error failure := by
  rw [Ne, accounts.failed_eq_zero_iff]
  push Not
  refine exists_congr fun path => and_congr_right fun _ => ?_
  cases results path with
  | error failure => exact ⟨fun _ => ⟨failure, rfl⟩, fun _ _ => nofun⟩
  | ok document => exact ⟨fun unreturned => absurd rfl (unreturned document), nofun⟩

/-- Documenting found files ends with their documents, or breaks off with nothing.  Once all
files are passed, only the text of a summary can be missing. -/
theorem documentAll_breaks_or_completes
    {maxDepth : Nat}
    {files : FileSystem}
    {includePaths : List Path}
    {request : Request}
    {paths : List Path}
    (wellNamed : files.WellNamed)
    (unredirected : nonempty? request.output = none)
    (regularPaths : ∀ path ∈ paths, path.Regular)
    (readable : ∀ path ∈ paths, Readable maxDepth files includePaths request path)
    (stderr : String) :
    ((∃ path ∈ paths, Breaks (resultOf maxDepth files includePaths request) request.format path) ∧
      Crashes (documentAll maxDepth files true includePaths request paths stderr)) ∨
    ((¬∃ path ∈ paths, Breaks (resultOf maxDepth files includePaths request) request.format path) ∧
      Completes (resultOf maxDepth files includePaths request) request.format paths
        (documentAll maxDepth files true includePaths request paths stderr)) := by
  have start : Accounts (resultOf maxDepth files includePaths request) [] ⟨stderr, [], 0⟩ :=
    ⟨rfl, by simp, nofun⟩
  have regularResults : ∀ path document,
      resultOf maxDepth files includePaths request path = .ok document → document.Regular :=
    fun _ _ returns => regular_of_documentFile returns
  have written_iff := exists_outputText_iff regularPaths regularResults request.format paths.length
  unfold documentAll
  rcases start.foldlM paths with ⟨last, runs, accounts⟩ |
    ⟨path, member, failure, late, fails, unreported, breaks⟩
  · rw [runs, unredirected]
    rw [List.nil_append] at accounts
    dsimp only
    rw [accounts.documents_eq]
    cases written : outputText true request.format paths.length
      (documentsOf (resultOf maxDepth files includePaths request) paths) with
    | error crash =>
        have unwritten := written_iff.not.mp (by rw [written]; exact nofun)
        push Not at unwritten
        obtain ⟨format_eq, path, member, document, returns, hides⟩ := unwritten
        exact .inl ⟨⟨path, member, .inr (.inr ⟨format_eq, document, returns, hides⟩)⟩,
          ⟨crash, rfl⟩, rfl⟩
    | ok text =>
        have unhidden := written_iff.mp ⟨text, written⟩
        refine .inr ⟨?_, ?_, ?_, ⟨text, written, rfl⟩, get?_documentsOf regularPaths⟩
        · rintro ⟨path, member, ⟨error, fails⟩ | fails | ⟨format_eq, document, returns, hides⟩⟩
          · cases accounts.reported path member _ fails
          · cases accounts.reported path member _ fails
          · exact unhidden format_eq path member document returns hides
        · by_cases zero : last.failed = 0
          · exact .inl (by rw [if_pos zero])
          · exact .inr (by rw [if_neg zero])
        · rw [← accounts.failed_ne_zero_iff]
          by_cases zero : last.failed = 0
          · simp [zero]
          · simp [zero]
  · rw [breaks]
    have reason := comment_or_tooDeep_of_documentFile wellNamed (readable path member) fails
      unreported
    refine .inl ⟨⟨path, member, ?_⟩, ⟨_, rfl⟩, rfl⟩
    rcases reason with ⟨error, rfl⟩ | rfl
    · exact .inl ⟨error, fails⟩
    · exact .inr (.inl fails)

/-- Let the documents be written to the standard output.  A run crashes and writes nothing if
one of the arguments cannot be searched.  Otherwise files are found; let all of them and the
files that they import hold texts.  Without files the run ends with exit code one.  With
files, it crashes and writes nothing if one of them has a comment that cannot be divided
into tags or parents that are nested too deeply, or if a summary is wanted and a tag of
one of them hides the constructor.  Otherwise it ends with the documents of all files
that can be documented, each under its path, and its exit code is one exactly if there
are others. -/
theorem run_crashes_or_documents_all
    (maxDepth : Nat)
    (files : FileSystem)
    (wellNamed : files.WellNamed)
    (arguments : List String)
    (request : Request)
    (parsed : parseArguments arguments = .ok request)
    (unredirected : nonempty? request.output = none)
    (includePaths : List String)
    (given : request.includePaths.mapM id = some includePaths) :
    ((∃ argument ∈ request.paths, Unsearchable files (.ofString argument)) →
      Crashes (run maxDepth files true arguments)) ∧
    ((¬∃ argument ∈ request.paths, Unsearchable files (.ofString argument)) →
      ∃ paths, (findSources files request.paths).1 = .ok paths ∧
        ((∀ path ∈ paths,
            Readable maxDepth files (includePaths.map Path.ofString) request path) →
          (paths = [] → (run maxDepth files true arguments).exit = .ok 1) ∧
          (paths ≠ [] →
            ((∃ path ∈ paths,
                Breaks (resultOf maxDepth files (includePaths.map Path.ofString) request)
                  request.format path) →
              Crashes (run maxDepth files true arguments)) ∧
            ((¬∃ path ∈ paths,
                Breaks (resultOf maxDepth files (includePaths.map Path.ofString) request)
                  request.format path) →
              Completes (resultOf maxDepth files (includePaths.map Path.ofString) request)
                request.format paths (run maxDepth files true arguments))))) := by
  have available : ¬(request.format = some .yaml ∧ (!true) = true) :=
    fun refused => nomatch refused.2
  have searched_iff := @exists_findSources_eq_error_iff files request.paths
  unfold run execute
  rw [parsed]
  dsimp only
  rw [if_neg available, ← searched_iff, given]
  cases found : findSources files request.paths with
  | mk result warnings =>
    cases result with
    | error error =>
      exact ⟨fun _ => ⟨⟨_, rfl⟩, rfl⟩, fun searched => absurd ⟨error, rfl⟩ searched⟩
    | ok paths =>
      refine ⟨nofun, fun _ => ⟨paths, rfl, fun readable => ⟨?_, fun nonempty => ?_⟩⟩⟩
      · rintro rfl
        rfl
      · have regularPaths : ∀ path ∈ paths, path.Regular :=
          wellNamed.regular_of_found (congrArg Prod.fst found)
        dsimp only
        rw [if_neg (by simpa using nonempty)]
        rcases documentAll_breaks_or_completes wellNamed unredirected regularPaths readable _ with
          ⟨breaks, crashes⟩ | ⟨unbroken, completes⟩
        · exact ⟨fun _ => crashes, fun unbroken => absurd breaks unbroken⟩
        · exact ⟨fun breaks => absurd breaks unbroken, fun _ => completes⟩

/-- The source of a contract whose comment uses the text of a tag as a table. -/
def misleadingSource : String :=
  "pragma solidity 1;\ncontract A \x7b\n/// @params x\n/// @param a b\n" ++
    "function f() public \x7b\x7d\n\x7d\n"

/-- The source of an empty contract. -/
def harmlessSource : String :=
  "pragma solidity 1;\ncontract B \x7b\x7d\n"

/-- The files of both contracts. -/
def misleadingFiles : FileSystem where
  entries := [
    (["a.sol"], .file misleadingSource.toUTF8),
    (["b.sol"], .file harmlessSource.toUTF8)]
  current := []

/-- The request for both documents. -/
def misleadingRequest : Request where
  paths := ["a.sol", "b.sol"]
  format := some .json
  output := none
  merges := true
  contract := none
  includePaths := []
  quiet := false
  verbose := false

/-- Whether no notice reports an import. -/
def importless (notices : List Notice) : Bool :=
  notices.all fun
    | .resolvedImport .. => false
    | _ => true

/-- A file that holds a text and imports nothing is readable. -/
theorem readable_of_importless
    {maxDepth : Nat}
    {files : FileSystem}
    {includePaths : List Path}
    {request : Request}
    {path : Path}
    (decodes : files.Decodes path)
    (nothing : importless (documentFile maxDepth files includePaths request path).2 = true) :
    Readable maxDepth files includePaths request path where
  decodes := decodes
  decodes_imported := by
    intro importPath imported listed
    cases List.all_eq_true.mp nothing _ listed

/-- The comment of one file ends the run, and the document of the other one is lost.  So does
a name that is too long. -/
theorem misleading_comment_ends_run :
    (∃ document, resultOf 1 misleadingFiles [] misleadingRequest ⟨"", ["b.sol"]⟩ =
      .ok document) ∧
    Crashes (run 1 misleadingFiles true ["a.sol", "b.sol", "--format", "json"]) ∧
    Crashes (run 1 { misleadingFiles with nameLimit := 4 } true
      ["a.sol", "b.sol", "--format", "json"]) := by
  have openedA : Subject.ofFile misleadingFiles ⟨"", ["a.sol"]⟩ misleadingRequest.contract =
      .ok ⟨misleadingSource, some "/a.sol", none, false⟩ :=
    Subject.ofFile_of_toUTF8 (by decide +kernel) rfl (by decide +kernel) none
  have openedB : Subject.ofFile misleadingFiles ⟨"", ["b.sol"]⟩ misleadingRequest.contract =
      .ok ⟨harmlessSource, some "/b.sol", none, false⟩ :=
    Subject.ofFile_of_toUTF8 (by decide +kernel) rfl (by decide +kernel) none
  have documentsA := @documentFile_eq 1 misleadingFiles [] _ _ _ openedA
  have documentsB := @documentFile_eq 1 misleadingFiles [] _ _ _ openedB
  have readableA : Readable 1 misleadingFiles [] misleadingRequest ⟨"", ["a.sol"]⟩ :=
    readable_of_importless (FileSystem.decodes_of_toUTF8 rfl)
      (by rw [documentsA]; decide +kernel)
  have readableB : Readable 1 misleadingFiles [] misleadingRequest ⟨"", ["b.sol"]⟩ :=
    readable_of_importless (FileSystem.decodes_of_toUTF8 rfl)
      (by rw [documentsB]; decide +kernel)
  have wellNamed : misleadingFiles.WellNamed := by
    intro place listed name member
    obtain rfl | rfl : name = "a.sol" ∨ name = "b.sol" := by
      rcases List.mem_cons.mp listed with rfl | listed
      · exact .inl (List.mem_singleton.mp member)
      · rw [List.mem_singleton.mp listed] at member
        exact .inr (List.mem_singleton.mp member)
    · exact ⟨⟨by decide, by decide, by decide⟩, by decide⟩
    · exact ⟨⟨by decide, by decide, by decide⟩, by decide⟩
  have found : (findSources misleadingFiles ["a.sol", "b.sol"]).1 =
      .ok [⟨"", ["a.sol"]⟩, ⟨"", ["b.sol"]⟩] := by
    decide +kernel
  have searched : ¬∃ argument ∈ misleadingRequest.paths,
      Unsearchable misleadingFiles (.ofString argument) := by
    rw [← exists_findSources_eq_error_iff, misleadingRequest, found]
    exact nofun
  have parsed : parseArguments ["a.sol", "b.sol", "--format", "json"] =
      .ok misleadingRequest := by
    decide +kernel
  have law := run_crashes_or_documents_all 1 misleadingFiles wellNamed _ _ parsed rfl [] rfl
  obtain ⟨paths, paths_eq, runs⟩ := law.2 searched
  obtain rfl := Except.ok.inj (paths_eq.symm.trans found)
  obtain ⟨-, crashes⟩ :=
    runs (List.forall_mem_cons.mpr ⟨readableA, List.forall_mem_singleton.mpr readableB⟩)
  have tooLong : Unsearchable { misleadingFiles with nameLimit := 4 } (.ofString "a.sol") :=
    .unfollowed (by decide +kernel) (.inl (by rfl))
  refine ⟨?_, (crashes (List.cons_ne_nil _ _)).1
    ⟨_, List.mem_cons_self, .inl ⟨.paramsIsText, ?_⟩⟩,
    (run_crashes_or_documents_all 1 { misleadingFiles with nameLimit := 4 } wellNamed _ _ parsed
      rfl [] rfl).1 ⟨_, List.mem_cons_self, tooLong⟩⟩
  · have returned : (resultOf 1 misleadingFiles [] misleadingRequest
        ⟨"", ["b.sol"]⟩).toOption.isSome = true := by
      rw [resultOf, documentsB]
      decide +kernel
    cases result : resultOf 1 misleadingFiles [] misleadingRequest ⟨"", ["b.sol"]⟩ with
    | error failure =>
        rw [result] at returned
        cases returned
    | ok document => exact ⟨document, rfl⟩
  · rw [List.map_nil, resultOf, documentsA]
    decide +kernel

end Cli
end ContractDoc
