import ContractDoc.Proofs.File.Access
import ContractDoc.Proofs.Text.Segment

/-!
# Paths and their texts

A path is read back from its text if its names are such as can stand between slashes.
The paths of arguments are of this kind, and so are the places of a file system, if the names
in it are.
-/

namespace ContractDoc

/-! ## Segments -/

namespace Text

theorem not_mem_of_mem_segments
    {separator : Char}
    {text piece : List Char}
    (member : piece ∈ segments separator text) :
    separator ∉ piece := by
  unfold segments at member
  induction text generalizing piece with
  | nil =>
      rw [List.mem_singleton.mp member]
      exact List.not_mem_nil
  | cons c text ih =>
      rw [segmentsBy_cons] at member
      have headPlain : separator ∉ (segmentsBy (· == separator) text).headD [] := by
        cases pieces_eq : segmentsBy (· == separator) text with
        | nil => exact List.not_mem_nil
        | cons first rest =>
            rw [pieces_eq] at ih
            exact ih List.mem_cons_self
      split at member
      · rcases List.mem_cons.mp member with rfl | member
        · exact List.not_mem_nil
        · exact ih member
      · rename_i different
        rcases List.mem_cons.mp member with rfl | member
        · rw [List.mem_cons]
          rintro (rfl | inside)
          · exact different (beq_self_eq_true separator)
          · exact headPlain inside
        · exact ih (List.mem_of_mem_tail member)

end Text

open Text

/-! ## Path texts -/

/-- A name that can stand between the slashes of a path. -/
structure IsPathName (name : String) : Prop where
  nonempty : name ≠ ""
  notDot : name ≠ "."
  noSlash : '/' ∉ name.toList

namespace Path

/-- A path that a text can stand for. -/
structure Regular (path : Path) : Prop where
  root : path.root = "" ∨ path.root = "/" ∨ path.root = "//"
  names : ∀ name ∈ path.parts, IsPathName name

/-- A path that is read from a text is regular. -/
theorem regular_ofString (text : String) : (ofString text).Regular where
  root := by
    unfold ofString
    dsimp only
    split
    · exact .inl rfl
    · exact .inr (.inr rfl)
    · exact .inr (.inl rfl)
  names := by
    intro name member
    obtain ⟨piece, kept⟩ := List.mem_filter.mp member
    obtain ⟨chars, segment, rfl⟩ := List.mem_map.mp piece
    obtain ⟨nonempty, notDot⟩ := of_decide_eq_true kept
    exact ⟨nonempty, notDot, by rw [String.toList_ofList]; exact not_mem_of_mem_segments segment⟩

/-- Names are read back from between their slashes. -/
theorem namesOf_intercalate
    {names : List String}
    (plain : ∀ name ∈ names, IsPathName name) :
    namesOf (['/'].intercalate (names.map String.toList)) = names := by
  unfold namesOf segments
  rw [segmentsBy_eq_splitOnP]
  cases names with
  | nil => rfl
  | cons name rest =>
      have apart : ∀ piece ∈ (name :: rest).map String.toList, '/' ∉ piece := by
        intro piece member
        obtain ⟨other, listed, rfl⟩ := List.mem_map.mp member
        exact (plain other listed).noSlash
      have divided := List.splitOn_intercalate '/' apart (List.cons_ne_nil _ _)
      unfold List.splitOn at divided
      rw [divided, List.map_map]
      have same : String.ofList ∘ String.toList = id := funext fun _ => String.ofList_toList
      rw [same, List.map_id]
      refine List.filter_eq_self.mpr ?_
      intro other listed
      exact decide_eq_true ⟨(plain other listed).nonempty, (plain other listed).notDot⟩

theorem namesOf_slash (text : List Char) : namesOf ('/' :: text) = namesOf text := by
  unfold namesOf segments
  rw [segmentsBy_cons]
  rfl

/-- The text of names does not start with a slash. -/
theorem takeWhile_intercalate
    {names : List String}
    (plain : ∀ name ∈ names, IsPathName name) :
    (['/'].intercalate (names.map String.toList)).takeWhile (· == '/') = [] := by
  cases names with
  | nil => rfl
  | cons name rest =>
      have isName := plain name List.mem_cons_self
      have text_eq : ∃ more, ['/'].intercalate ((name :: rest).map String.toList) =
          name.toList ++ more := by
        cases rest with
        | nil => exact ⟨[], by simp [List.intercalate]⟩
        | cons other rest => exact ⟨_, by simp [List.intercalate]; rfl⟩
      obtain ⟨more, text_eq⟩ := text_eq
      rw [text_eq]
      cases chars : name.toList with
      | nil => exact absurd (String.toList_eq_nil_iff.mp chars) isName.nonempty
      | cons c others =>
          have different : c ≠ '/' := by
            rintro rfl
            exact isName.noSlash (chars ▸ List.mem_cons_self)
          simp [different]

/-- Slashes before names are the root of a path.  Two slashes make a root of their own; three or
more count as one. -/
theorem ofString_of_toList
    {names : List String}
    (plain : ∀ name ∈ names, IsPathName name)
    {text : String}
    {count : Nat}
    (text_eq : text.toList =
      List.replicate count '/' ++ ['/'].intercalate (names.map String.toList)) :
    ofString text = ⟨match count with | 0 => "" | 2 => "//" | _ => "/", names⟩ := by
  have slashes_eq : text.toList.takeWhile (· == '/') = List.replicate count '/' := by
    have front : ∀ c ∈ List.replicate count '/', (c == '/') = true := by
      intro c member
      rw [List.eq_of_mem_replicate member]
      rfl
    rw [text_eq, List.takeWhile_append_of_pos front, takeWhile_intercalate plain,
      List.append_nil]
  have names_eq : namesOf text.toList = names := by
    rw [text_eq]
    clear text_eq slashes_eq
    induction count with
    | zero => exact namesOf_intercalate plain
    | succ count ih => rw [List.replicate_succ, List.cons_append, namesOf_slash, ih]
  unfold ofString
  rw [slashes_eq, names_eq]
  rcases count with _ | _ | _ | count <;> rfl

/-- A regular path is read back from its text. -/
theorem Regular.ofString_toString
    {path : Path}
    (regular : path.Regular) :
    ofString path.toString = path := by
  obtain ⟨root, parts⟩ := path
  have joined : ∀ root : String, (root ++ "/".intercalate parts).toList =
      root.toList ++ ['/'].intercalate (parts.map String.toList) := by
    intro root
    rw [String.toList_append, String.toList_intercalate]
    rfl
  unfold toString
  split
  · rename_i nothing
    obtain ⟨root_eq, parts_eq⟩ := nothing
    dsimp only at root_eq parts_eq
    subst root_eq parts_eq
    rfl
  · rcases regular.root with root_eq | root_eq | root_eq
    all_goals
      dsimp only at root_eq
      subst root_eq
    · exact @ofString_of_toList parts regular.names _ 0 (joined "")
    · exact @ofString_of_toList parts regular.names _ 1 (joined "/")
    · exact @ofString_of_toList parts regular.names _ 2 (joined "//")

/-- Regular paths with the same text are the same. -/
theorem Regular.eq_of_toString_eq
    {path other : Path}
    (regular : path.Regular)
    (otherRegular : other.Regular)
    (same : path.toString = other.toString) :
    path = other := by
  rw [← regular.ofString_toString, same, otherRegular.ofString_toString]

end Path

/-! ## Names in a file system -/

/-- A name that a file can have. -/
structure IsFileName (name : String) : Prop extends IsPathName name where
  noNull : '\x00' ∉ name.toList

instance (name : String) : Decidable (IsFileName name) :=
  decidable_of_iff
    ((name ≠ "" ∧ name ≠ "." ∧ '/' ∉ name.toList) ∧ '\x00' ∉ name.toList)
    ⟨fun ⟨⟨nonempty, notDot, noSlash⟩, noNull⟩ => ⟨⟨nonempty, notDot, noSlash⟩, noNull⟩,
      fun isName => ⟨⟨isName.nonempty, isName.notDot, isName.noSlash⟩, isName.noNull⟩⟩

theorem Path.hasNullByte_eq_false
    {path : Path}
    (plain : ∀ name ∈ path.parts, IsFileName name) :
    path.hasNullByte = false := by
  refine List.any_eq_false.mpr ?_
  intro name member
  rw [List.contains_iff_mem]
  exact (plain name member).noNull

namespace FileSystem

variable {files : FileSystem} {path : Path}

/-- All names in a file system are names that files can have. -/
def WellNamed (files : FileSystem) : Prop :=
  ∀ place ∈ Entries.keys files.entries, ∀ name ∈ place, IsFileName name

theorem WellNamed.of_node?
    {place : List String}
    {node : FileNode}
    (wellNamed : files.WellNamed)
    (found : files.node? place = some node) :
    ∀ name ∈ place, IsFileName name := by
  by_cases top : place = []
  · subst top
    exact List.forall_mem_nil _
  · exact wellNamed place (mem_keys_of_node? found top)

/-- The place of what is found has names that files can have. -/
theorem WellNamed.of_lookUp
    {node : FileNode}
    (wellNamed : files.WellNamed)
    (found : files.lookUp path = .ok node) :
    ∀ name ∈ path.place files.current, IsFileName name := by
  obtain ⟨place, located, found⟩ := lookUp_eq_ok.mp found
  rw [place_of_locate located]
  exact wellNamed.of_node? found

end FileSystem

theorem Path.regular_ofPlace
    {place : List String}
    (plain : ∀ name ∈ place, IsFileName name) :
    (Path.ofPlace place).Regular :=
  ⟨.inr (.inl rfl), fun name member => (plain name member).toIsPathName⟩

end ContractDoc
