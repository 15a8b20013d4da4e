import ContractDoc.Import.Disk
import ContractDoc.Proofs.File.Access

/-!
# Searching a file system

Paths are asked for in order.  A search ends with the first path that leads to a file, or with
the first one of which it cannot be told what it leads to.
-/

namespace ContractDoc
namespace Import

variable {files : FileSystem}

/-! ## Directories -/

/-- Directories are kept in order if it can be told of all paths whether they lead to one. -/
theorem directoriesAmong_of_forall
    {paths : List Path}
    (told : ∀ path ∈ paths, ∃ isThere, files.isDirectory path = .ok isThere) :
    directoriesAmong files paths =
      .ok (paths.filter fun path => files.isDirectory path = .ok true) := by
  induction paths with
  | nil => rfl
  | cons path paths ih =>
    obtain ⟨⟨isThere, first⟩, others⟩ := List.forall_mem_cons.1 told
    rw [directoriesAmong, first, ih others]
    cases isThere with
    | true => rw [List.filter_cons_of_pos (by simp [first])]; rfl
    | false => rw [List.filter_cons_of_neg (by simp [first])]; rfl

/-- The first error ends the check for directories. -/
theorem directoriesAmong_of_first
    {before after : List Path}
    {path : Path}
    {error : FileError}
    (told : ∀ earlier ∈ before, ∃ isThere, files.isDirectory earlier = .ok isThere)
    (fails : files.isDirectory path = .error error) :
    directoriesAmong files (before ++ path :: after) = .error error := by
  induction before with
  | nil => rw [List.nil_append, directoriesAmong, fails]; rfl
  | cons other before ih =>
    obtain ⟨⟨isThere, first⟩, others⟩ := List.forall_mem_cons.1 told
    rw [List.cons_append, directoriesAmong, first, ih others]
    rfl

theorem told_of_directoriesAmong
    {paths found : List Path}
    (succeeds : directoriesAmong files paths = .ok found) :
    ∀ path ∈ paths, ∃ isThere, files.isDirectory path = .ok isThere := by
  induction paths generalizing found with
  | nil => exact List.forall_mem_nil _
  | cons path paths ih =>
    obtain ⟨isThere, first, succeeds⟩ := bind_eq_ok.1 succeeds
    obtain ⟨others, rest, -⟩ := bind_eq_ok.1 succeeds
    exact List.forall_mem_cons.2 ⟨⟨isThere, first⟩, ih rest⟩

theorem exists_of_directoriesAmong_error
    {paths : List Path}
    {error : FileError}
    (fails : directoriesAmong files paths = .error error) :
    ∃ path, files.probe path = .error error := by
  induction paths with
  | nil => cases fails
  | cons path paths ih =>
    rw [directoriesAmong, FileSystem.isDirectory] at fails
    cases told : files.probe path with
    | error other =>
      rw [told] at fails
      exact ⟨path, told.trans (congrArg Except.error (Except.error.inj fails))⟩
    | ok answer =>
      rw [told] at fails
      cases others : directoriesAmong files paths with
      | error other =>
        rw [others] at fails ih
        exact ih fails
      | ok found =>
        rw [others] at fails
        cases fails

/-! ## Files -/

/-- Paths that do not lead to files are passed over. -/
theorem firstFile?_append
    {before : List Path}
    (missing : ∀ earlier ∈ before, files.isFile earlier = .ok false)
    (paths : List Path) :
    firstFile? files (before ++ paths) = firstFile? files paths := by
  induction before with
  | nil => rfl
  | cons path before ih =>
    obtain ⟨first, others⟩ := List.forall_mem_cons.1 missing
    rw [List.cons_append, firstFile?, first]
    exact ih others

theorem firstFile?_eq_none_iff
    {paths : List Path} :
    firstFile? files paths = .ok none ↔ ∀ path ∈ paths, files.isFile path = .ok false := by
  induction paths with
  | nil => exact ⟨fun _ => List.forall_mem_nil _, fun _ => rfl⟩
  | cons path paths ih =>
    rw [List.forall_mem_cons, ← ih, firstFile?]
    cases files.isFile path with
    | error error => exact ⟨nofun, nofun⟩
    | ok isFile =>
      cases isFile with
      | true => exact ⟨nofun, nofun⟩
      | false => exact ⟨fun rest => ⟨rfl, rest⟩, fun ⟨_, rest⟩ => rest⟩

theorem isFile_of_firstFile?
    {paths : List Path}
    {found : Path}
    (first : firstFile? files paths = .ok (some found)) :
    files.isFile found = .ok true := by
  induction paths with
  | nil => cases first
  | cons path paths ih =>
    obtain ⟨isFile, told, first⟩ := bind_eq_ok.1 first
    cases isFile with
    | true => rw [← Option.some.inj (Except.ok.inj first), told]
    | false => exact ih first

theorem exists_of_firstFile?_error
    {paths : List Path}
    {error : FileError}
    (fails : firstFile? files paths = .error error) :
    ∃ path, files.probe path = .error error := by
  induction paths with
  | nil => cases fails
  | cons path paths ih =>
    rw [firstFile?, FileSystem.isFile] at fails
    cases told : files.probe path with
    | error other =>
      rw [told] at fails
      exact ⟨path, told.trans (congrArg Except.error (Except.error.inj fails))⟩
    | ok answer =>
      rw [told] at fails
      change (if answer.any FileNode.isFile = true then .ok (some path)
        else firstFile? files paths) = _ at fails
      split at fails
      · cases fails
      · exact ih fails

/-! ## Imports -/

variable
  {includePaths : List Path}
  {importPath : String}
  {importer : Option String}

/-- What a search finds is a file. -/
theorem probe_of_search
    {found : Path}
    (searched : search files includePaths importPath importer = .ok (some found)) :
    ∃ contents, files.probe found = .ok (some (.file contents)) := by
  unfold search at searched
  split at searched
  · cases searched
  · obtain ⟨paths, -, first⟩ := bind_eq_ok.1 searched
    exact FileSystem.probe_of_isFile (isFile_of_firstFile? first)

/-- A search fails if the importing file has an impossible directory, or if it cannot be told
what some path leads to. -/
theorem error_of_search
    {error : FileError}
    (fails : search files includePaths importPath importer = .error error) :
    (baseDirectory files importer).hasNullByte = true ∨
      ∃ path, files.probe path = .error error := by
  unfold search at fails
  split at fails
  · next impossible => exact .inl (Bool.and_eq_true_iff.1 impossible).2
  · refine .inr ?_
    unfold candidates bases dependencyDirectories at fails
    dsimp only at fails
    split at fails
    · exact exists_of_firstFile?_error fails
    · cases kept : directoriesAmong files
        (((baseDirectory files importer).resolve files.current).upwards.map
          (·.join ⟨"", [dependencyDirectory]⟩)) with
      | error other =>
        rw [kept] at fails
        exact exists_of_directoriesAmong_error
          (kept.trans (congrArg Except.error (Except.error.inj fails)))
      | ok found =>
        rw [kept] at fails
        exact exists_of_firstFile?_error fails

end Import
end ContractDoc
