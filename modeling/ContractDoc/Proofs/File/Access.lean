import ContractDoc.File.System
import ContractDoc.Proofs.Entries
import ContractDoc.Proofs.Outcome

/-!
# Access to files

What a path leads to is found at its place.  A path that cannot be followed leads nowhere,
or it is an error to ask: if a name or the path is too long, or if a directory on the way may
not be searched.  A file can be found without being open to be read.
-/

namespace ContractDoc
namespace FileSystem

variable
  {files : FileSystem}
  {path : Path}
  {node : FileNode}

/-! ## Following a path -/

/-- A path that can be followed leads to its absolute place. -/
theorem place_of_locate
    {place : List String}
    (located : files.locate path = .ok place) :
    path.place files.current = place := by
  unfold locate at located
  split at located
  · cases located
  unfold Path.place
  generalize (if path.isAbsolute then [] else files.current) = origin at located ⊢
  generalize path.parts = parts at located ⊢
  induction parts generalizing origin with
  | nil => exact Except.ok.inj located
  | cons name names ih =>
      rw [List.foldlM_cons] at located
      obtain ⟨next, entered, located⟩ := bind_eq_ok.mp located
      have next_eq : Path.follow origin name = next := by
        unfold enter at entered
        split at entered
        · cases entered
        · cases entered
        · split at entered
          · cases entered
          · split at entered
            · cases entered
            · exact Except.ok.inj entered
      rw [List.foldl_cons, next_eq]
      exact ih next located

/-- What is found is found at the place that the path leads to. -/
theorem lookUp_eq_ok :
    files.lookUp path = .ok node ↔
      ∃ place, files.locate path = .ok place ∧ files.node? place = some node := by
  unfold lookUp
  rw [bind_eq_ok]
  refine exists_congr fun place => and_congr_right fun _ => ?_
  cases files.node? place with
  | none => exact ⟨nofun, nofun⟩
  | some other => exact ⟨fun same => congrArg some (Except.ok.inj same),
      fun same => congrArg Except.ok (Option.some.inj same)⟩

/-- What is found below the root is an entry. -/
theorem mem_keys_of_node?
    {place : List String}
    (found : files.node? place = some node)
    (notTop : place ≠ []) :
    place ∈ Entries.keys files.entries := by
  rw [node?, if_neg notTop] at found
  exact Entries.mem_keys_iff.mpr (Option.isSome_of_eq_some found)

/-! ## Asking what is there -/

/-- What a path leads to is told if it leads to something. -/
theorem probe_eq_some_iff :
    files.probe path = .ok (some node) ↔
      path.hasNullByte = false ∧ files.lookUp path = .ok node := by
  unfold probe
  cases null : path.hasNullByte with
  | true => simp
  | false =>
    cases files.lookUp path with
    | ok other => simp
    | error obstacle => cases obstacle <;> simp [Obstacle.isAbsence]

/-- It is an error to ask for a path that is too long or that leads through a directory
without access. -/
theorem probe_eq_error_iff
    {error : FileError} :
    files.probe path = .error error ↔
      path.hasNullByte = false ∧
        (files.lookUp path = .error .nameTooLong ∧ error = .nameTooLong path.toString ∨
          files.lookUp path = .error .forbidden ∧ error = .forbidden path.toString) := by
  unfold probe
  cases null : path.hasNullByte with
  | true => simp
  | false =>
    cases files.lookUp path with
    | ok node => simp
    | error obstacle => cases obstacle <;> simp [Obstacle.isAbsence, Obstacle.toError, eq_comm]

theorem isFile_of_probe
    {answer : Option FileNode}
    (told : files.probe path = .ok answer) :
    files.isFile path = .ok (answer.any FileNode.isFile) := by
  rw [isFile, told]
  rfl

theorem probe_of_isFile
    (isFile : files.isFile path = .ok true) :
    ∃ contents, files.probe path = .ok (some (.file contents)) := by
  unfold FileSystem.isFile at isFile
  cases told : files.probe path with
  | error error =>
    rw [told] at isFile
    cases isFile
  | ok answer =>
    rw [told] at isFile
    rcases answer with _ | _ | contents
    · cases isFile
    · cases isFile
    · exact ⟨contents, rfl⟩

/-! ## Opening what is there -/

/-- What is found is opened if there is access to its place. -/
theorem openPlace_of_node?
    {place : List String}
    (found : files.node? place = some node) :
    files.openPlace place = if place ∈ files.closed then .error .forbidden else .ok node := by
  rw [openPlace, found]

/-- What is opened is what is found. -/
theorem lookUp_of_openAt
    (opened : files.openAt path = .ok node) :
    files.lookUp path = .ok node := by
  obtain ⟨place, located, opened⟩ := bind_eq_ok.1 opened
  refine lookUp_eq_ok.2 ⟨place, located, ?_⟩
  unfold openPlace at opened
  split at opened
  · cases opened
  · next other found =>
    split at opened
    · cases opened
    · rw [found, Except.ok.inj opened]

/-- What is read from a file depends on whether it holds a text. -/
theorem readText_of_openAt
    {contents : ByteArray}
    (opened : files.openAt path = .ok (.file contents)) :
    files.readText path =
      match String.fromUTF8? contents with
      | none => .error (.undecodable path.toString)
      | some text => .ok (String.ofList (normalizeLineEnds text.toList)) := by
  unfold readText
  rw [opened]
  rfl

theorem readText_of_openAt_error
    {obstacle : Obstacle}
    (fails : files.openAt path = .error obstacle) :
    files.readText path = .error (obstacle.toError path) := by
  unfold readText
  rw [fails]
  rfl

end FileSystem
end ContractDoc
