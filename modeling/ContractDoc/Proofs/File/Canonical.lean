import ContractDoc.Model.Failure
import ContractDoc.Proofs.File.Path
import Mathlib.Data.List.Infix
import Mathlib.Logic.Function.Iterate

/-!
# Canonical paths

A canonical path is absolute, is written in one way only and does not lead up again.  The
directory part of its text is the text of its parent, and the way up from it ends at the root.
In a well-formed file system the canonical path of whatever is found leads there.
-/

namespace ContractDoc

open Text

/-! ## The directory part of a path text -/

section Directory

variable {text : String} {front last : List Char}

/-- The directory part ends with the last slash. -/
theorem afterLast_append
    (ends : front.getLast? = some '/')
    (noSlash : '/' ∉ last) :
    afterLast '/' (front ++ last) = last := by
  obtain ⟨init, rfl⟩ := List.getLast?_eq_some_iff.1 ends
  have inside : ∀ c ∈ last.reverse, (c != '/') = true := by
    intro c member
    rw [bne_iff_ne]
    rintro rfl
    exact noSlash (List.mem_reverse.1 member)
  rw [afterLast, List.reverse_append, List.takeWhile_append_of_pos inside]
  simp

theorem directoryOf_eq
    (text_eq : text.toList = front ++ last)
    (ends : front.getLast? = some '/')
    (noSlash : '/' ∉ last) :
    directoryOf text =
      if front.all (· == '/') then String.ofList front
      else String.ofList (front.reverse.dropWhile (· == '/')).reverse := by
  have taken : (front ++ last).take ((front ++ last).length - last.length) = front := by
    rw [List.length_append, Nat.add_sub_cancel, List.take_left]
  rw [directoryOf, text_eq, afterLast_append ends noSlash, taken]

/-- The directory part of a name at the root is the root. -/
theorem directoryOf_of_root
    {count : Nat}
    (text_eq : text.toList = List.replicate (count + 1) '/' ++ last)
    (noSlash : '/' ∉ last) :
    (directoryOf text).toList = List.replicate (count + 1) '/' := by
  have ends : (List.replicate (count + 1) '/').getLast? = some '/' := by
    rw [List.replicate_succ', List.getLast?_concat]
  rw [directoryOf_eq text_eq ends noSlash, if_pos (by simp), String.toList_ofList]

/-- The directory part of a name behind others ends before the slash between them. -/
theorem directoryOf_of_inner
    {c : Char}
    (text_eq : text.toList = front ++ [c] ++ '/' :: last)
    (notSlash : c ≠ '/')
    (noSlash : '/' ∉ last) :
    (directoryOf text).toList = front ++ [c] := by
  have whole : text.toList = (front ++ [c] ++ ['/']) ++ last := by rw [text_eq]; simp
  have mixed : ¬ (front ++ [c] ++ ['/']).all (· == '/') = true := fun all =>
    notSlash (beq_iff_eq.1 (List.all_eq_true.1 all c (by simp)))
  rw [directoryOf_eq whole (List.getLast?_concat ..) noSlash, if_neg mixed, String.toList_ofList]
  simp [notSlash]

end Directory

namespace Path

variable {root name : String} {parts : List String}

theorem toString_of_isAbsolute
    {path : Path}
    (absolute : path.isAbsolute = true) :
    path.toString.toList = path.root.toList ++ ['/'].intercalate (path.parts.map String.toList) := by
  have rooted : ¬ (path.root = "" ∧ path.parts = []) := by
    rintro ⟨none, -⟩
    rw [isAbsolute, none] at absolute
    cases absolute
  rw [toString, if_neg rooted, String.toList_append, String.toList_intercalate]
  rfl

/-- Names that are joined by slashes end with the last one. -/
theorem intercalate_concat
    {names : List (List Char)}
    (nonempty : names ≠ [])
    (last : List Char) :
    ['/'].intercalate (names ++ [last]) = ['/'].intercalate names ++ '/' :: last := by
  induction names with
  | nil => exact absurd rfl nonempty
  | cons first names ih =>
    cases names with
    | nil => simp [List.intercalate]
    | cons second names =>
      have rest := ih (List.cons_ne_nil _ _)
      rw [List.cons_append, List.cons_append, List.intercalate_cons_cons, ← List.cons_append, rest,
        List.intercalate_cons_cons, List.append_assoc _ _ ('/' :: last)]

/-- Joined names do not end with a slash. -/
theorem exists_intercalate_concat
    {names : List String}
    (nonempty : names ≠ [])
    (plain : ∀ name ∈ names, IsPathName name) :
    ∃ front c, ['/'].intercalate (names.map String.toList) = front ++ [c] ∧ c ≠ '/' := by
  obtain ⟨init, last, rfl⟩ := (List.eq_nil_or_concat names).resolve_left nonempty
  rw [List.concat_eq_append] at plain ⊢
  have isName := plain last (by simp)
  have visible : last.toList ≠ [] := fun none => isName.nonempty (String.toList_eq_nil_iff.1 none)
  obtain ⟨front, c, last_eq⟩ := (List.eq_nil_or_concat last.toList).resolve_left visible
  rw [List.concat_eq_append] at last_eq
  have notSlash : c ≠ '/' := by
    rintro rfl
    exact isName.noSlash (by simp [last_eq])
  rw [List.map_append, List.map_singleton]
  by_cases only : init = []
  · subst only
    exact ⟨front, c, by simp [List.intercalate, last_eq], notSlash⟩
  · refine ⟨['/'].intercalate (init.map String.toList) ++ '/' :: front, c, ?_, notSlash⟩
    rw [intercalate_concat (by simpa using only), last_eq, List.append_assoc, List.cons_append]

/-- The root of an absolute path is made of slashes. -/
theorem Regular.root_eq_replicate
    {path : Path}
    (regular : path.Regular)
    (absolute : path.isAbsolute = true) :
    ∃ count, path.root.toList = List.replicate (count + 1) '/' := by
  rcases regular.root with root_eq | root_eq | root_eq
  · rw [isAbsolute, root_eq] at absolute
    cases absolute
  · exact ⟨0, by rw [root_eq]; rfl⟩
  · exact ⟨1, by rw [root_eq]; rfl⟩

/-- The directory part of the text of an absolute path is the text of its parent. -/
theorem Regular.directoryOf_toString
    {path : Path}
    (regular : path.Regular)
    (absolute : path.isAbsolute = true) :
    directoryOf path.toString = path.parent.toString := by
  obtain ⟨count, root_eq⟩ := regular.root_eq_replicate absolute
  have text_eq := toString_of_isAbsolute absolute
  have parent_eq : path.parent.toString.toList =
      path.root.toList ++ ['/'].intercalate (path.parts.dropLast.map String.toList) :=
    @toString_of_isAbsolute path.parent absolute
  apply String.toList_inj.1
  rw [parent_eq]
  rcases List.eq_nil_or_concat path.parts with none | ⟨init, last, parts_eq⟩
  · rw [none, root_eq] at text_eq ⊢
    rw [directoryOf_of_root text_eq (by simp [List.intercalate])]
    simp [List.intercalate]
  · rw [List.concat_eq_append] at parts_eq
    have isName := regular.names last (by simp [parts_eq])
    rw [parts_eq, List.map_append, List.map_singleton] at text_eq
    rw [parts_eq, List.dropLast_concat]
    by_cases only : init = []
    · subst only
      rw [root_eq] at text_eq ⊢
      have single : ['/'].intercalate ([].map String.toList ++ [last.toList]) = last.toList := by
        simp [List.intercalate]
      rw [single] at text_eq
      rw [directoryOf_of_root text_eq isName.noSlash]
      simp [List.intercalate]
    · obtain ⟨front, c, init_eq, notSlash⟩ := exists_intercalate_concat only fun name member =>
        regular.names name (parts_eq ▸ List.mem_append_left _ member)
      rw [intercalate_concat (by simpa using only), init_eq, ← List.append_assoc,
        ← List.append_assoc] at text_eq
      rw [directoryOf_of_inner text_eq notSlash isName.noSlash, init_eq, List.append_assoc]

/-! ## The way up -/

/-- Going up takes one name after the other from the end. -/
theorem iterate_parent
    (path : Path)
    (count : Nat) :
    parent^[count] path = ⟨path.root, path.parts.take (path.parts.length - count)⟩ := by
  induction count with
  | zero => rw [Nat.sub_zero, List.take_length]; rfl
  | succ count ih =>
    rw [Function.iterate_succ_apply', ih, parent, List.dropLast_eq_take, List.take_take,
      List.length_take]
    congr 2
    omega

/-- The way up ends where all names are taken. -/
theorem iterate_parent_succ_eq_iff
    {path : Path}
    {count : Nat} :
    parent^[count + 1] path = parent^[count] path ↔ path.parts.length ≤ count := by
  rw [iterate_parent, iterate_parent, Path.mk.injEq, List.take_eq_take_iff, and_iff_right rfl]
  omega

/-- The way up visits the parents of a path, and ends at the first one that is its own
parent. -/
theorem upwards_eq_iterates (path : Path) :
    path.upwards =
      (List.range (path.parts.length + 1)).map fun count => parent^[count] path := by
  fun_induction upwards path with
  | case1 path top =>
    have none : path.parts.length = 0 :=
      Nat.le_zero.1 ((@iterate_parent_succ_eq_iff path 0).1 top)
    rw [none]
    rfl
  | case2 path above ih =>
    have fewer : path.parent.parts.length + 1 = path.parts.length := by
      have shorter := length_parts_parent_lt above
      rw [parent, List.length_dropLast] at shorter ⊢
      omega
    rw [ih, fewer, List.range_succ_eq_map, List.map_cons, List.map_map]
    rfl

/-- The way up from a place leads through its beginnings. -/
theorem upwards_ofPlace (place : List String) :
    (ofPlace place).upwards = place.inits.reverse.map ofPlace := by
  induction place using List.reverseRecOn with
  | nil =>
    rw [upwards, dif_pos (by rfl)]
    rfl
  | append_singleton place name ih =>
    have parent_eq : (ofPlace (place ++ [name])).parent = ofPlace place := by
      rw [parent, ofPlace, List.dropLast_concat, ofPlace]
    have above : ofPlace place ≠ ofPlace (place ++ [name]) := by
      intro same
      have length_eq := congrArg (fun path => path.parts.length) same
      simp [ofPlace] at length_eq
    rw [upwards, parent_eq, dif_neg above, ih, List.inits_append]
    simp

end Path

/-! ## Canonical texts -/

/-- The text of a path that is absolute and written in one way only, without double dots. -/
structure IsCanonical (text : String) : Prop where
  written : (Path.ofString text).toString = text
  absolute : (Path.ofString text).isAbsolute = true
  noUp : ".." ∉ (Path.ofString text).parts
  /-- No file has a null byte in its path. -/
  possible : (Path.ofString text).hasNullByte = false

instance (text : String) : Decidable (IsCanonical text) :=
  decidable_of_iff
    ((Path.ofString text).toString = text ∧ (Path.ofString text).isAbsolute = true ∧
      ".." ∉ (Path.ofString text).parts ∧ (Path.ofString text).hasNullByte = false)
    ⟨fun ⟨written, absolute, noUp, possible⟩ => ⟨written, absolute, noUp, possible⟩,
      fun canonical =>
        ⟨canonical.written, canonical.absolute, canonical.noUp, canonical.possible⟩⟩

namespace IsCanonical

variable {text : String}

theorem nonempty?_eq (canonical : IsCanonical text) : nonempty? (some text) = some text := by
  have visible : text ≠ "" := by
    rintro rfl
    exact absurd canonical.absolute (by decide)
  simp [nonempty?, visible]

/-- The directory part of a canonical text is read as the parent. -/
theorem ofString_directoryOf (canonical : IsCanonical text) :
    Path.ofString (directoryOf text) = (Path.ofString text).parent := by
  have regular := Path.regular_ofString text
  have parentRegular : (Path.ofString text).parent.Regular :=
    ⟨regular.root, fun name member => regular.names name (List.dropLast_subset _ member)⟩
  have directory_eq := regular.directoryOf_toString canonical.absolute
  rw [canonical.written] at directory_eq
  rw [directory_eq, parentRegular.ofString_toString]

theorem hasNullByte_parent (canonical : IsCanonical text) :
    (Path.ofString text).parent.hasNullByte = false := by
  have possible := List.any_eq_false.1 canonical.possible
  exact List.any_eq_false.2 fun name member => possible name (List.dropLast_subset _ member)

end IsCanonical

/-- Names that do not lead up are the place that they lead to. -/
theorem Path.place_of_noUp
    {path : Path}
    (absolute : path.isAbsolute = true)
    (noUp : ".." ∉ path.parts)
    (current : List String) :
    path.place current = path.parts := by
  rw [place, if_pos absolute]
  generalize path.parts = parts at noUp ⊢
  induction parts using List.reverseRecOn with
  | nil => rfl
  | append_singleton parts name ih =>
    rw [List.mem_append, List.mem_singleton, not_or] at noUp
    rw [List.foldl_append, ih noUp.1, List.foldl_cons, List.foldl_nil, follow,
      if_neg (Ne.symm noUp.2)]

/-! ## Well-formed file systems -/

/-- Every entry of a file system is in a directory, and has a name that a path can hold and
that is not too long. -/
structure FileSystem.WellFormed (files : FileSystem) : Prop where
  wellNamed : files.WellNamed
  noUp : ∀ place ∈ Entries.keys files.entries, ".." ∉ place
  short : ∀ place ∈ Entries.keys files.entries, ∀ name ∈ place,
    name.utf8ByteSize ≤ files.nameLimit
  rooted : ∀ place ∈ Entries.keys files.entries, files.node? place.dropLast = some .directory

/-- There is no access to a place, or to a directory on the way there from the root. -/
def FileSystem.Barred (files : FileSystem) (place : List String) : Prop :=
  ∃ beginning ∈ place.inits, beginning ∈ files.closed

instance (files : FileSystem) (place : List String) : Decidable (files.Barred place) :=
  inferInstanceAs (Decidable (∃ beginning ∈ place.inits, beginning ∈ files.closed))

namespace FileSystem

variable {files : FileSystem}

theorem barred_nil : files.Barred [] ↔ [] ∈ files.closed := by
  simp [Barred]

theorem barred_concat
    (place : List String)
    (name : String) :
    files.Barred (place ++ [name]) ↔ files.Barred place ∨ place ++ [name] ∈ files.closed := by
  simp [Barred, List.inits_append, or_and_right, exists_or]

theorem barred_concat_iff_of_not
    {place : List String}
    (unbarred : ¬files.Barred place)
    (name : String) :
    files.Barred (place ++ [name]) ↔ place ++ [name] ∈ files.closed := by
  rw [barred_concat, or_iff_right unbarred]

namespace WellFormed

variable {place : List String} {node : FileNode}

theorem noUp_of_node?
    (wellFormed : files.WellFormed)
    (found : files.node? place = some node) :
    ".." ∉ place := by
  by_cases top : place = []
  · subst top
    exact List.not_mem_nil
  · exact wellFormed.noUp place (mem_keys_of_node? found top)

/-- What is found in a directory is entered there if there is access. -/
theorem enter_of_node?
    {name : String}
    (wellFormed : files.WellFormed)
    (found : files.node? (place ++ [name]) = some node) :
    files.enter place name =
      if place ∈ files.closed then .error .forbidden else .ok (place ++ [name]) := by
  have listed := mem_keys_of_node? found (List.concat_ne_nil _ _)
  have inside := wellFormed.rooted _ listed
  have noUp := wellFormed.noUp _ listed
  rw [List.mem_append, List.mem_singleton, not_or] at noUp
  have short := wellFormed.short _ listed name (List.mem_append_right _ (List.mem_singleton_self _))
  rw [List.dropLast_concat] at inside
  rw [enter, inside]
  dsimp only
  rw [if_neg (Nat.not_lt_of_le short), Path.follow, if_neg (Ne.symm noUp.2)]

/-- The way down to what is found is open if there is access to all directories on it. -/
theorem foldlM_enter
    {name : String}
    (wellFormed : files.WellFormed)
    (found : files.node? (place ++ [name]) = some node) :
    (place ++ [name]).foldlM files.enter [] =
      if files.Barred place then .error .forbidden else .ok (place ++ [name]) := by
  induction place using List.reverseRecOn generalizing name node with
  | nil =>
    have entered := wellFormed.enter_of_node? found
    rw [List.nil_append] at entered ⊢
    rw [List.foldlM_cons, entered, if_congr barred_nil rfl rfl]
    split <;> rfl
  | append_singleton place last ih =>
    have inside := wellFormed.rooted _ (mem_keys_of_node? found (List.concat_ne_nil _ _))
    rw [List.dropLast_concat] at inside
    have entered := wellFormed.enter_of_node? found
    rw [List.foldlM_append, ih inside]
    by_cases barred : files.Barred place
    · rw [if_pos barred, if_pos ((barred_concat _ _).2 (.inl barred))]
      rfl
    · rw [if_neg barred, if_congr (barred_concat_iff_of_not barred last) rfl rfl, ← entered]
      exact bind_pure (files.enter (place ++ [last]) name)

/-- What is found is opened at its absolute path, unless the path is too long or barred. -/
theorem openAt_ofPlace
    (wellFormed : files.WellFormed)
    (found : files.node? place = some node) :
    files.openAt (.ofPlace place) =
      if files.pathLimit < (Path.ofPlace place).toString.utf8ByteSize then .error .nameTooLong
      else if files.Barred place then .error .forbidden
      else .ok node := by
  rw [openAt, locate]
  split
  · rfl
  · change place.foldlM files.enter [] >>= files.openPlace = _
    rcases List.eq_nil_or_concat place with rfl | ⟨init, last, rfl⟩
    · change files.openPlace [] = _
      rw [openPlace_of_node? found, if_congr barred_nil rfl rfl]
    · rw [List.concat_eq_append] at found ⊢
      rw [wellFormed.foldlM_enter found]
      by_cases barred : files.Barred init
      · rw [if_pos barred, if_pos ((barred_concat _ _).2 (.inl barred))]
        rfl
      · rw [if_neg barred, if_congr (barred_concat_iff_of_not barred last) rfl rfl]
        exact openPlace_of_node? found

/-- The absolute path of what is found is canonical. -/
theorem isCanonical
    (wellFormed : files.WellFormed)
    (found : files.node? place = some node) :
    IsCanonical (Path.ofPlace place).toString := by
  have plain := wellFormed.wellNamed.of_node? found
  have read := (Path.regular_ofPlace plain).ofString_toString
  exact {
    written := by rw [read]
    absolute := by rw [read]; rfl
    noUp := by rw [read]; exact wellFormed.noUp_of_node? found
    possible := by rw [read]; exact Path.hasNullByte_eq_false plain }

end WellFormed
end FileSystem
end ContractDoc
