import ContractDoc.File.Sources
import ContractDoc.Proofs.File.Path

/-!
# Found files

The paths of source files that are found are regular.  The search fails exactly if an argument
cannot be searched: a name or a path is too long, or a directory may not be searched.
-/

namespace ContractDoc

variable
  {files : FileSystem}
  {path : Path}

/-! ## Below a directory -/

namespace FileSystem

/-- The names that lead to what is below a place are names that files can have. -/
theorem WellNamed.of_below
    (wellNamed : files.WellNamed)
    {place names : List String}
    (found : names ∈ files.below place) :
    ∀ name ∈ names, IsFileName name := by
  unfold below at found
  rw [List.mem_mergeSort] at found
  obtain ⟨entry, kept, rfl⟩ := List.mem_map.mp found
  have listed := (List.mem_filter.mp kept).1
  intro name member
  exact wellNamed entry.1 (List.mem_map_of_mem listed) name (List.mem_of_mem_drop member)

theorem eq_below_of_list
    {directory : List String}
    {names : List (List String)}
    (listed : files.list path directory = .ok names) :
    names = files.below directory := by
  unfold list at listed
  dsimp only at listed
  split at listed
  · cases listed
  · exact (Except.ok.inj listed).symm

/-- A directory is not listed if the path of one below it is too long. -/
theorem exists_list_eq_error_iff
    {directory : List String} :
    (∃ error, files.list path directory = .error error) ↔
      ∃ names ∈ files.below directory, files.node? (directory ++ names) = some .directory ∧
        files.pathLimit < (path.join ⟨"", names⟩).toString.utf8ByteSize := by
  have isDirectory_iff : ∀ place,
      (files.node? place).any FileNode.isDirectory = true ↔
        files.node? place = some .directory := by
    intro place
    rcases files.node? place with _ | _ | contents
    · exact ⟨nofun, nofun⟩
    · exact ⟨fun _ => rfl, fun _ => rfl⟩
    · exact ⟨nofun, nofun⟩
  unfold list
  dsimp only
  constructor
  · rintro ⟨error, fails⟩
    split at fails
    · next names first =>
      have tooLong := List.find?_some first
      rw [Bool.and_eq_true_iff, isDirectory_iff, decide_eq_true_iff] at tooLong
      exact ⟨names, List.mem_of_find?_eq_some first, tooLong⟩
    · cases fails
  · rintro ⟨names, listed, isDirectory, tooLong⟩
    split
    · exact ⟨_, rfl⟩
    · next none_eq =>
      refine absurd ?_ (List.find?_eq_none.mp none_eq names listed)
      rw [Bool.and_eq_true_iff, isDirectory_iff, decide_eq_true_iff]
      exact ⟨isDirectory, tooLong⟩

end FileSystem

/-! ## Found files are regular -/

/-- The paths of the files for which an argument stands are regular. -/
theorem FileSystem.WellNamed.regular_of_sourcesAt
    (wellNamed : files.WellNamed)
    {sources : List Path}
    (regular : path.Regular)
    (found : sourcesAt files path = .ok (.ok sources)) :
    ∀ source ∈ sources, source.Regular := by
  obtain ⟨answer, -, found⟩ := bind_eq_ok.mp found
  rcases answer with _ | _ | contents
  · cases Except.ok.inj found
  · obtain ⟨listed, list_eq, found⟩ := bind_eq_ok.mp found
    obtain rfl := Except.ok.inj (Except.ok.inj found)
    intro source member
    obtain ⟨names, names_found, rfl⟩ := List.mem_map.mp (List.mem_filter.mp member).1
    rw [FileSystem.eq_below_of_list list_eq] at names_found
    refine ⟨regular.root, ?_⟩
    intro name listed
    rcases List.mem_append.mp listed with listed | listed
    · exact regular.names name listed
    · exact (wellNamed.of_below (List.mem_filter.mp names_found).1 name listed).toIsPathName
  · dsimp only at found
    split at found
    · obtain rfl := Except.ok.inj (Except.ok.inj found)
      exact List.forall_mem_singleton.mpr regular
    · cases Except.ok.inj found

/-- The paths of found files are regular. -/
theorem FileSystem.WellNamed.regular_of_found
    (wellNamed : files.WellNamed)
    {arguments : List String}
    {paths : List Path}
    (found : (findSources files arguments).1 = .ok paths) :
    ∀ path ∈ paths, path.Regular := by
  induction arguments generalizing paths with
  | nil =>
    obtain rfl := Except.ok.inj found
    exact List.forall_mem_nil _
  | cons argument arguments ih =>
    unfold findSources at found
    split at found
    · cases found
    · exact ih found
    · next sources sources_eq =>
      obtain ⟨others, others_eq, rfl⟩ := map_eq_ok.mp found
      have regular := Path.regular_ofString argument
      intro path member
      rcases List.mem_append.mp member with member | member
      · exact wellNamed.regular_of_sourcesAt regular sources_eq path member
      · exact ih others_eq path member

/-! ## Failing searches -/

/-- A path cannot be searched for source files.  Either a name or the path is too long, or a
directory on the way may not be searched; or it leads to a directory, and the path of another
directory below is too long. -/
inductive Unsearchable
    (files : FileSystem)
    (path : Path) : Prop
  | unfollowed
      (noNull : path.hasNullByte = false)
      (obstructed : files.lookUp path = .error .nameTooLong ∨
        files.lookUp path = .error .forbidden)
  | tooDeep {names : List String}
      (noNull : path.hasNullByte = false)
      (directory : files.lookUp path = .ok .directory)
      (listed : names ∈ files.below (path.place files.current))
      (isDirectory : files.node? (path.place files.current ++ names) = some .directory)
      (tooLong : files.pathLimit < (path.join ⟨"", names⟩).toString.utf8ByteSize)

theorem exists_sourcesAt_eq_error_iff :
    (∃ error, sourcesAt files path = .error error) ↔ Unsearchable files path := by
  constructor
  · rintro ⟨error, fails⟩
    unfold sourcesAt at fails
    cases told : files.probe path with
    | error other =>
      obtain ⟨noNull, ⟨tooLong, -⟩ | ⟨forbidden, -⟩⟩ := FileSystem.probe_eq_error_iff.mp told
      · exact .unfollowed noNull (.inl tooLong)
      · exact .unfollowed noNull (.inr forbidden)
    | ok answer =>
      rw [told] at fails
      rcases answer with _ | _ | contents
      · cases fails
      · obtain ⟨noNull, directory⟩ := FileSystem.probe_eq_some_iff.mp told
        cases listed : files.list path (path.place files.current) with
        | error other =>
          obtain ⟨names, member, isDirectory, tooLong⟩ :=
            FileSystem.exists_list_eq_error_iff.mp ⟨other, listed⟩
          exact .tooDeep noNull directory member isDirectory tooLong
        | ok names =>
          change (files.list path (path.place files.current) >>= _) = _ at fails
          rw [listed] at fails
          cases fails
      · change (if path.extension = sourceExtension then _ else _) = _ at fails
        split at fails <;> cases fails
  · rintro (⟨noNull, obstructed⟩ | ⟨noNull, directory, listed, isDirectory, tooLong⟩)
    · obtain ⟨error, told⟩ : ∃ error, files.probe path = .error error := by
        rcases obstructed with obstructed | obstructed
        · exact ⟨_, FileSystem.probe_eq_error_iff.mpr ⟨noNull, .inl ⟨obstructed, rfl⟩⟩⟩
        · exact ⟨_, FileSystem.probe_eq_error_iff.mpr ⟨noNull, .inr ⟨obstructed, rfl⟩⟩⟩
      refine ⟨error, ?_⟩
      unfold sourcesAt
      rw [told]
      rfl
    · obtain ⟨error, fails⟩ :=
        FileSystem.exists_list_eq_error_iff.mpr ⟨_, listed, isDirectory, tooLong⟩
      refine ⟨error, ?_⟩
      unfold sourcesAt
      rw [FileSystem.probe_eq_some_iff.mpr ⟨noNull, directory⟩]
      change (files.list path (path.place files.current) >>= _) = _
      rw [fails]
      rfl

/-- The search fails exactly if one of the arguments cannot be searched. -/
theorem exists_findSources_eq_error_iff
    {arguments : List String} :
    (∃ error, (findSources files arguments).1 = .error error) ↔
      ∃ argument ∈ arguments, Unsearchable files (.ofString argument) := by
  induction arguments with
  | nil => exact ⟨nofun, nofun⟩
  | cons argument arguments ih =>
    rw [List.exists_mem_cons_iff, ← exists_sourcesAt_eq_error_iff, ← ih, findSources]
    cases sourcesAt files (.ofString argument) with
    | error error => exact ⟨fun _ => .inl ⟨error, rfl⟩, fun _ => ⟨error, rfl⟩⟩
    | ok sources =>
      cases sources with
      | error warning => exact ⟨.inr, fun fails => fails.resolve_left nofun⟩
      | ok found =>
        dsimp only
        cases (findSources files arguments).1 with
        | error error => exact ⟨fun _ => .inr ⟨error, rfl⟩, fun _ => ⟨error, rfl⟩⟩
        | ok others => exact ⟨nofun, fun fails => fails.elim nofun nofun⟩

end ContractDoc
