import ContractDoc.Model.Traversal
import ContractDoc.Proofs.File.Canonical
import ContractDoc.Proofs.Import.Disk
import Mathlib.Tactic.FinCases

/-!
# The order of search

An import of a file is resolved to the first file among the paths that are tried: from the
directory of the importing file, from each include path, and from the directories for
dependencies on the way up to the root.  Where it cannot be told what a path leads to, the
search ends with this error, though a file may be found further on and though no file may be
there at all.  The paths depend on the importing file only through its directory, which is why
a traversal may keep answers by directory.
-/

namespace ContractDoc
namespace Import

/-! ## The paths that are tried -/

/-- An import path that begins with one dot or two dots and a slash. -/
def IsLocal (importPath : String) : Prop :=
  ['.', '/'] <+: importPath.toList ∨ ['.', '.', '/'] <+: importPath.toList

instance (importPath : String) : Decidable (IsLocal importPath) :=
  inferInstanceAs (Decidable (_ ∨ _))

/-- The places of directories for dependencies, in a directory and in those above it. -/
def surrounding (directory : Path) : List Path :=
  directory.parts.inits.reverse.map fun place => .ofPlace (place ++ ["node_modules"])

/-- The paths that are checked for directories before an import of a file is looked for. -/
def checked (importPath file : String) : List Path :=
  if IsLocal importPath then [] else surrounding (.ofString (directoryOf file))

/-- The paths that are tried for an import of a file, in order. -/
def tried
    (files : FileSystem)
    (includePaths : List Path)
    (importPath file : String) : List Path :=
  let others :=
    if IsLocal importPath then []
    else
      includePaths ++
        (checked importPath file).filter fun path => files.isDirectory path = .ok true
  (.ofString (directoryOf file) :: others).map (·.join (.ofString importPath))

/-- The answer to an import that leads to a file at a place.  It is an error if the absolute
path is too long, if there is no access to the place, and if the file holds no text. -/
def answerAt
    (files : FileSystem)
    (importPath : String)
    (place : List String)
    (contents : ByteArray) : Resolution :=
  let path := (Path.ofPlace place).toString
  ⟨[.resolvedImport importPath path],
    if files.pathLimit < path.utf8ByteSize then .error (.file (.nameTooLong path))
    else if files.Barred place then .error (.file (.forbidden path))
    else
      match String.fromUTF8? contents with
      | none => .error (.file (.undecodable path))
      | some text => .ok ⟨String.ofList (FileSystem.normalizeLineEnds text.toList), path⟩⟩

variable
  {files : FileSystem}
  {includePaths : List Path}
  {importPath file : String}

theorem isRelative_iff : isRelative importPath = true ↔ IsLocal importPath := by
  rw [isRelative, Bool.or_eq_true, List.isPrefixOf_iff_prefix, List.isPrefixOf_iff_prefix]
  rfl

/-- The walk up from a directory passes the places of directories for dependencies. -/
theorem map_upwards_resolve
    {directory : Path}
    (absolute : directory.isAbsolute = true)
    (noUp : ".." ∉ directory.parts)
    (current : List String) :
    (directory.resolve current).upwards.map (·.join ⟨"", [dependencyDirectory]⟩) =
      surrounding directory := by
  rw [Path.resolve, Path.place_of_noUp absolute noUp, Path.upwards_ofPlace, List.map_map]
  rfl

section Directory

variable (canonical : IsCanonical file)
include canonical

theorem baseDirectory_eq :
    baseDirectory files (some file) = .ofString (directoryOf file) := by
  rw [baseDirectory, canonical.nonempty?_eq, canonical.ofString_directoryOf]

theorem isAbsolute_directory : (Path.ofString (directoryOf file)).isAbsolute = true := by
  rw [canonical.ofString_directoryOf]
  exact canonical.absolute

theorem noUp_directory : ".." ∉ (Path.ofString (directoryOf file)).parts := by
  rw [canonical.ofString_directoryOf]
  exact fun member => canonical.noUp (List.dropLast_subset _ member)

/-- The walk starts at the directory of the importing file. -/
theorem resolve_baseDirectory :
    (baseDirectory files (some file)).resolve files.current =
      .ofPlace (Path.ofString (directoryOf file)).parts := by
  rw [baseDirectory_eq canonical, Path.resolve,
    Path.place_of_noUp (isAbsolute_directory canonical) (noUp_directory canonical)]

end Directory

/-! ## The search -/

/-- A search checks for directories and then takes the first path that leads to a file. -/
theorem search_eq (canonical : IsCanonical file) :
    search files includePaths importPath (some file) =
      (directoriesAmong files (checked importPath file) >>= fun _ =>
        firstFile? files (tried files includePaths importPath file)) := by
  have possible : (baseDirectory files (some file)).hasNullByte = false := by
    rw [baseDirectory, canonical.nonempty?_eq]
    exact canonical.hasNullByte_parent
  have walked := map_upwards_resolve (isAbsolute_directory canonical) (noUp_directory canonical)
    files.current
  rw [search, possible, Bool.and_false, if_neg Bool.false_ne_true, candidates, bases,
    dependencyDirectories, baseDirectory_eq canonical, walked, tried, checked]
  by_cases isLocal : IsLocal importPath
  · rw [if_pos (isRelative_iff.2 isLocal), if_pos isLocal, if_pos isLocal]
    rfl
  · rw [if_neg (mt isRelative_iff.1 isLocal), if_neg isLocal, if_neg isLocal]
    cases checks : directoriesAmong files (surrounding (.ofString (directoryOf file))) with
    | error error => rfl
    | ok found =>
      have kept := directoriesAmong_of_forall (told_of_directoriesAmong checks)
      rw [checks] at kept
      rw [← Except.ok.inj kept]
      rfl

/-! ## Answers -/

/-- The first check that fails ends the search. -/
theorem disk_of_first_check
    (canonical : IsCanonical file)
    {before after : List Path}
    {path : Path}
    {error : FileError}
    (checked_eq : checked importPath file = before ++ path :: after)
    (told : ∀ earlier ∈ before, ∃ isThere, files.isDirectory earlier = .ok isThere)
    (fails : files.isDirectory path = .error error) :
    disk files includePaths importPath (some file) = ⟨[], .error (.file error)⟩ := by
  rw [disk, search_eq canonical, checked_eq, directoriesAmong_of_first told fails]
  rfl

section Told

variable
  (canonical : IsCanonical file)
  (told : ∀ path ∈ checked importPath file, ∃ isThere, files.isDirectory path = .ok isThere)
  {before after : List Path}
  {path : Path}
  (tried_eq : tried files includePaths importPath file = before ++ path :: after)
  (missing : ∀ earlier ∈ before, files.isFile earlier = .ok false)
include canonical told tried_eq missing

theorem search_of_first :
    search files includePaths importPath (some file) = firstFile? files (path :: after) := by
  rw [search_eq canonical, directoriesAmong_of_forall told, tried_eq]
  exact firstFile?_append missing _

/-- A path of which it cannot be told whether it leads to a file ends the search. -/
theorem disk_of_first_error
    {error : FileError}
    (fails : files.isFile path = .error error) :
    disk files includePaths importPath (some file) = ⟨[], .error (.file error)⟩ := by
  rw [disk, search_of_first canonical told tried_eq missing, firstFile?, fails]
  rfl

/-- The first path that leads to a file gives the answer, with the canonical path of its
place. -/
theorem disk_of_first_file
    (wellFormed : files.WellFormed)
    {contents : ByteArray}
    (found : files.probe path = .ok (some (.file contents))) :
    ∃ place,
      files.locate path = .ok place ∧
      files.node? place = some (.file contents) ∧
      IsCanonical (Path.ofPlace place).toString ∧
      Path.ofString (Path.ofPlace place).toString = .ofPlace place ∧
      disk files includePaths importPath (some file) =
        answerAt files importPath place contents := by
  obtain ⟨place, located, node_eq⟩ :=
    FileSystem.lookUp_eq_ok.1 (FileSystem.probe_eq_some_iff.1 found).2
  have plain := wellFormed.wellNamed.of_node? node_eq
  refine ⟨place, located, node_eq, wellFormed.isCanonical node_eq,
    (Path.regular_ofPlace plain).ofString_toString, ?_⟩
  have isFile : files.isFile path = .ok true := FileSystem.isFile_of_probe found
  have resolved : search files includePaths importPath (some file) = .ok (some path) := by
    rw [search_of_first canonical told tried_eq missing, firstFile?, isFile]
    rfl
  have opened := wellFormed.openAt_ofPlace node_eq
  rw [disk, resolved]
  change answer files importPath path = _
  rw [answer, Path.resolve, FileSystem.place_of_locate located, answerAt]
  split at opened
  · rename_i tooLong
    rw [FileSystem.readText_of_openAt_error opened, if_pos tooLong]
    rfl
  · rename_i short
    split at opened
    · rename_i barred
      rw [FileSystem.readText_of_openAt_error opened, if_neg short, if_pos barred]
      rfl
    · rename_i unbarred
      rw [FileSystem.readText_of_openAt opened, if_neg short, if_neg unbarred]
      cases String.fromUTF8? contents with
      | none => rfl
      | some text => rfl

end Told

/-- An import is unresolved exactly if it can be told of all paths that they lead to no
file. -/
theorem disk_eq_unresolved_iff (canonical : IsCanonical file) :
    disk files includePaths importPath (some file) = .unresolved importPath (some file) ↔
      (∀ path ∈ checked importPath file, ∃ isThere, files.isDirectory path = .ok isThere) ∧
        ∀ path ∈ tried files includePaths importPath file, files.isFile path = .ok false := by
  have nothing_iff : disk files includePaths importPath (some file) =
      .unresolved importPath (some file) ↔
        search files includePaths importPath (some file) = .ok none := by
    unfold disk
    rcases search files includePaths importPath (some file) with _ | _ | _
    · exact ⟨nofun, nofun⟩
    · exact ⟨fun _ => rfl, fun _ => rfl⟩
    · exact ⟨nofun, nofun⟩
  rw [nothing_iff, search_eq canonical, bind_eq_ok, ← firstFile?_eq_none_iff]
  constructor
  · rintro ⟨found, checks, nothing⟩
    exact ⟨told_of_directoriesAmong checks, nothing⟩
  · rintro ⟨told, nothing⟩
    exact ⟨_, directoriesAmong_of_forall told, nothing⟩

/-- The paths that are searched depend on the directory of the importing file only. -/
theorem search_of_directoryOf_eq
    {other : String}
    (canonical : IsCanonical file)
    (otherCanonical : IsCanonical other)
    (same : directoryOf other = directoryOf file) :
    search files includePaths importPath (some other) =
      search files includePaths importPath (some file) := by
  rw [search_eq canonical, search_eq otherCanonical, tried, tried, checked, checked, same]

/-- An import of a canonical file is resolved to the first file among the paths that are
tried, with the canonical path of its place.  If it cannot be told what a path leads to that
is checked, or one that is tried before any file, the answer is this error.  An import is
unresolved exactly if it can be told of all paths that they lead to no file.  The walk up from
the directory ends at the root, where a path is its own parent.  The files in one directory
share one answer, and the keys of imports tell the directories apart. -/
theorem resolved_in_search_order
    (wellFormed : files.WellFormed)
    (includePaths : List Path)
    (importPath : String)
    (canonical : IsCanonical file) :
    (∀ before path after error,
      checked importPath file = before ++ path :: after →
      (∀ earlier ∈ before, ∃ isThere, files.isDirectory earlier = .ok isThere) →
      files.isDirectory path = .error error →
      disk files includePaths importPath (some file) = ⟨[], .error (.file error)⟩) ∧
    ((∀ path ∈ checked importPath file, ∃ isThere, files.isDirectory path = .ok isThere) →
      ∀ before path after,
        tried files includePaths importPath file = before ++ path :: after →
        (∀ earlier ∈ before, files.isFile earlier = .ok false) →
        (∀ error, files.isFile path = .error error →
          disk files includePaths importPath (some file) = ⟨[], .error (.file error)⟩) ∧
        ∀ contents, files.probe path = .ok (some (.file contents)) →
          ∃ place,
            files.locate path = .ok place ∧
            files.node? place = some (.file contents) ∧
            IsCanonical (Path.ofPlace place).toString ∧
            Path.ofString (Path.ofPlace place).toString = .ofPlace place ∧
            disk files includePaths importPath (some file) =
              answerAt files importPath place contents) ∧
    (disk files includePaths importPath (some file) = .unresolved importPath (some file) ↔
      (∀ path ∈ checked importPath file, ∃ isThere, files.isDirectory path = .ok isThere) ∧
        ∀ path ∈ tried files includePaths importPath file, files.isFile path = .ok false) ∧
    (∃ start steps,
      start = Path.ofPlace (Path.ofString (directoryOf file)).parts ∧
      start = (baseDirectory files (some file)).resolve files.current ∧
      (∀ count, Path.parent^[count + 1] start = Path.parent^[count] start ↔ steps ≤ count) ∧
      Path.parent^[steps] start = Path.ofPlace [] ∧
      start.upwards = (List.range (steps + 1)).map fun count => Path.parent^[count] start) ∧
    (∃ known : Option Resolution, ∀ other, IsCanonical other →
      (ImportKey.ofImport importPath (some other) = .ofImport importPath (some file) ↔
        directoryOf other = directoryOf file) ∧
      (directoryOf other = directoryOf file →
        disk files includePaths importPath (some other) =
          known.getD (.unresolved importPath (some other)))) := by
  refine ⟨fun _ _ _ _ => disk_of_first_check canonical, ?first, disk_eq_unresolved_iff canonical,
    ?walk, ?directory⟩
  case first =>
    intro told before path after tried_eq missing
    exact ⟨fun _ => disk_of_first_error canonical told tried_eq missing,
      fun _ => disk_of_first_file canonical told tried_eq missing wellFormed⟩
  case walk =>
    refine ⟨_, _, rfl, (resolve_baseDirectory canonical).symm,
      fun count => Path.iterate_parent_succ_eq_iff, ?_, Path.upwards_eq_iterates _⟩
    rw [Path.iterate_parent, Nat.sub_self, List.take_zero]
    rfl
  case directory =>
    have keys_iff : ∀ other, IsCanonical other →
        (ImportKey.ofImport importPath (some other) = .ofImport importPath (some file) ↔
          directoryOf other = directoryOf file) := by
      intro other otherCanonical
      rw [ImportKey.ofImport, ImportKey.ofImport, canonical.nonempty?_eq,
        otherCanonical.nonempty?_eq]
      simp
    cases searched : search files includePaths importPath (some file) with
    | error error =>
      refine ⟨some ⟨[], .error (.file error)⟩, fun other otherCanonical =>
        ⟨keys_iff other otherCanonical, fun same => ?_⟩⟩
      rw [disk, search_of_directoryOf_eq canonical otherCanonical same, searched]
      rfl
    | ok found =>
      refine ⟨found.map (answer files importPath), fun other otherCanonical =>
        ⟨keys_iff other otherCanonical, fun same => ?_⟩⟩
      rw [disk, search_of_directoryOf_eq canonical otherCanonical same, searched]
      cases found with
      | none => rfl
      | some path => rfl

/-- A file system with a directory for dependencies above the one for sources, and with an
include path in which nothing is found.  Names have at most sixteen bytes. -/
def layeredFiles : FileSystem where
  entries := [
    (["lib"], .directory),
    (["project"], .directory),
    (["project", "node_modules"], .directory),
    (["project", "node_modules", "Math.sol"], .file "library Math \x7b\x7d".toUTF8),
    (["project", "src"], .directory),
    (["project", "src", "Token.sol"], .file "import \"Math.sol\";".toUTF8)]
  current := []
  nameLimit := 16

/-- The dependency is found one directory above that of the importing file, after the
include path.  A name that is too long is an error, though no candidate is a file. -/
theorem dependency_found_above :
    layeredFiles.WellFormed ∧
      IsCanonical "/project/src/Token.sol" ∧
      disk layeredFiles [⟨"", ["lib"]⟩] "Math.sol" (some "/project/src/Token.sol") =
        answerAt layeredFiles "Math.sol" ["project", "node_modules", "Math.sol"]
          "library Math \x7b\x7d".toUTF8 ∧
      disk layeredFiles [⟨"", ["lib"]⟩] "SafeMathematics.sol" (some "/project/src/Token.sol") =
        ⟨[], .error (.file (.nameTooLong "/project/src/SafeMathematics.sol"))⟩ := by
  have wellFormed : layeredFiles.WellFormed := by
    refine ⟨?wellNamed, by decide +kernel, by decide +kernel, ?rooted⟩
    case wellNamed =>
      unfold FileSystem.WellNamed
      decide +kernel
    case rooted =>
      intro place listed
      fin_cases listed <;> rfl
  have canonical : IsCanonical "/project/src/Token.sol" := by decide +kernel
  have told : ∀ path ∈ surrounding ⟨"/", ["project", "src"]⟩,
      ∃ isThere, layeredFiles.isDirectory path = .ok isThere := by
    intro path listed
    fin_cases listed
    · exact ⟨false, rfl⟩
    · exact ⟨true, rfl⟩
    · exact ⟨false, rfl⟩
  refine ⟨wellFormed, canonical, ?found, ?refused⟩
  case found =>
    have law := resolved_in_search_order wellFormed [⟨"", ["lib"]⟩] "Math.sol" canonical
    have checked_eq : checked "Math.sol" "/project/src/Token.sol" =
        surrounding ⟨"/", ["project", "src"]⟩ := by
      decide +kernel
    obtain ⟨place, located, -, -, -, answer_eq⟩ := (law.2.1 (checked_eq ▸ told)
      [⟨"/", ["project", "src", "Math.sol"]⟩, ⟨"", ["lib", "Math.sol"]⟩]
      ⟨"/", ["project", "node_modules", "Math.sol"]⟩ [] (by decide +kernel)
      (by decide +kernel)).2 "library Math \x7b\x7d".toUTF8 rfl
    obtain rfl : ["project", "node_modules", "Math.sol"] = place := Except.ok.inj located
    exact answer_eq
  case refused =>
    have law := resolved_in_search_order wellFormed [⟨"", ["lib"]⟩] "SafeMathematics.sol" canonical
    have checked_eq : checked "SafeMathematics.sol" "/project/src/Token.sol" =
        surrounding ⟨"/", ["project", "src"]⟩ := by
      decide +kernel
    exact (law.2.1 (checked_eq ▸ told) [] ⟨"/", ["project", "src", "SafeMathematics.sol"]⟩
      [⟨"", ["lib", "SafeMathematics.sol"]⟩,
        ⟨"/", ["project", "node_modules", "SafeMathematics.sol"]⟩]
      (by decide +kernel) (List.forall_mem_nil _)).1 _ (by decide +kernel)

end Import
end ContractDoc
