import Mathlib.Algebra.GroupWithZero.Nat
import ContractDoc.Proofs.Resolver
import ContractDoc.Proofs.Traversal.Independence

/-!
# How often the files of ancestors are parsed

Ancestors are shared by their canonical path and their name, and each of them keeps its own
syntax tree.  So a file is parsed once for every name under which its ancestors go, and not
again, whatever has been asked for.
-/

namespace ContractDoc
namespace Traversal

/-- The ancestors whose file has a canonical path. -/
def ancestorsOf (state : Traversal) (path : String) : List AncestorKey :=
  (Entries.keys state.ancestors).filter (·.path = path)

/-- How often the file of an ancestor was parsed for it with success.  All attempts have the
same result, which is that of its source. -/
def parsesOf (reports : List Report) (state : Traversal) (key : AncestorKey) : Nat :=
  match parse (state.model (.ancestor key)).subject.source with
  | .error _ => 0
  | .ok _ => computationsOf reports (.ancestor key) .tree

/-- How often a file was parsed with success for all ancestors in it. -/
def parsesOfFile (reports : List Report) (state : Traversal) (path : String) : Nat :=
  ((state.ancestorsOf path).map (parsesOf reports state)).sum

/-- Whether the syntax tree of an ancestor is known. -/
def knowsTree (state : Traversal) (key : AncestorKey) : Bool :=
  (state.model (.ancestor key)).cache.has .tree

variable
  {resolver : ImportResolver}
  {reports : List Report}
  {fresh state : Traversal}

theorem mem_ancestorsOf
    {path : String}
    {key : AncestorKey} :
    key ∈ state.ancestorsOf path ↔ state.Has (.ancestor key) ∧ key.path = path := by
  rw [ancestorsOf, List.mem_filter, Entries.mem_keys_iff, decide_eq_true_iff]
  rfl

/-- An ancestor whose tree is known was parsed once, and any other one never with success. -/
theorem Accounted.parsesOf_eq
    (accounted : Accounted reports state)
    {key : AncestorKey}
    (present : state.Has (.ancestor key)) :
    parsesOf reports state key = (state.knowsTree key).toNat := by
  have account := accounted.account present .tree
  have plain_eq : (state.model (.ancestor key)).subject.plain .tree =
      (parse (state.model (.ancestor key)).subject.source).mapError Failure.parse := rfl
  unfold parsesOf knowsTree Cache.has
  generalize parse (state.model (.ancestor key)).subject.source = parsed at plain_eq ⊢
  generalize computationsOf reports (.ancestor key) .tree = count at account ⊢
  generalize (state.model (.ancestor key)).cache.value? .tree = known at account ⊢
  cases account with
  | idle => cases parsed <;> rfl
  | computed succeeds =>
      cases parsed with
      | error failure => cases plain_eq.symm.trans succeeds
      | ok tree => rfl
  | failed count fails =>
      cases parsed with
      | error failure => rfl
      | ok tree => cases plain_eq.symm.trans fails

/-- A file was parsed once for each of its ancestors whose tree is known. -/
theorem Accounted.parsesOfFile_eq
    (accounted : Accounted reports state)
    (path : String) :
    parsesOfFile reports state path =
      ((state.ancestorsOf path).filter state.knowsTree).length := by
  have present : ∀ key ∈ state.ancestorsOf path, state.Has (.ancestor key) :=
    fun key member => (mem_ancestorsOf.mp member).1
  unfold parsesOfFile
  generalize state.ancestorsOf path = keys at present ⊢
  induction keys with
  | nil => rfl
  | cons key keys ih =>
      obtain ⟨first, others⟩ := List.forall_mem_cons.mp present
      rw [List.map_cons, List.sum_cons, ih others, accounted.parsesOf_eq first]
      cases known : state.knowsTree key <;> simp [known, Nat.add_comm]

/-- The ancestors in a file have different names. -/
theorem Sound.nodup_ancestorsOf
    (sound : state.Sound)
    (path : String) :
    ((state.ancestorsOf path).map AncestorKey.name).Nodup := by
  refine List.Nodup.map_on ?_ (sound.keys_nodup.filter _)
  intro key member other otherMember name_eq
  have path_eq := (mem_ancestorsOf.mp member).2.trans (mem_ancestorsOf.mp otherMember).2.symm
  cases key
  cases other
  exact congrArg₂ AncestorKey.mk path_eq name_eq

/-- **Ancestors are parsed once for each name.**  After any calls on the root, failing ones
included, there is one ancestor of a canonical path for each name under which its file has been
reached, and its file has been parsed with success once for it if its syntax tree is known,
and never if it is not.  So a file has been parsed as often as there are such names, and at most
once if all its ancestors go by one name. -/
theorem file_parsed_once_for_each_name
    (resolver : ImportResolver)
    (subject : Subject)
    (mergesParents : Option Bool)
    (calls : List RootCall) :
    let fresh := start subject mergesParents
    let state := afterRootCalls resolver fresh calls
    (∃ reports, Course resolver fresh reports state) ∧
    ∀ reports, Course resolver fresh reports state → ∀ path,
      (∀ key ∈ state.ancestorsOf path,
        (state.model (.ancestor key)).subject.filePath = some path ∧
        (state.model (.ancestor key)).subject.contractName = some key.name ∧
        parsesOf reports state key ≤ 1) ∧
      ((state.ancestorsOf path).map AncestorKey.name).Nodup ∧
      parsesOfFile reports state path =
        ((state.ancestorsOf path).filter state.knowsTree).length ∧
      ((∀ key ∈ state.ancestorsOf path, ∀ other ∈ state.ancestorsOf path,
        key.name = other.name) → parsesOfFile reports state path ≤ 1) := by
  intro fresh state
  have freshSound : fresh.Sound := .start subject mergesParents
  have unvisited : Revisited resolver fresh fresh := .start freshSound
  have sound : state.Sound := (unvisited.calls freshSound calls).sound
  refine ⟨Course.start.rootCalls freshSound calls, fun reports course path => ?_⟩
  have accounted := course.accounted (.start subject mergesParents)
  have distinct := sound.nodup_ancestorsOf path
  have parses_eq := accounted.parsesOfFile_eq path
  refine ⟨?_, distinct, parses_eq, ?_⟩
  · intro key member
    obtain ⟨present, path_eq⟩ := mem_ancestorsOf.mp member
    have isOfKey := sound.matches_key key present
    refine ⟨path_eq ▸ isOfKey.filePath_eq, isOfKey.contractName_eq, ?_⟩
    rw [accounted.parsesOf_eq present]
    exact Bool.toNat_le _
  · intro oneName
    rw [parses_eq]
    refine Nat.le_trans (List.length_filter_le _ _) ?_
    generalize state.ancestorsOf path = keys at distinct oneName
    match keys with
    | [] | [_] => simp
    | key :: other :: keys =>
        have same : key.name = other.name := oneName key (by simp) other (by simp)
        simp [same] at distinct

/-- One file with two contracts. -/
def twinSources : Entries String Import.StoredSource :=
  [("a", ⟨"pragma solidity 1;contract A \x7b\x7d contract B \x7b\x7d", none⟩)]

/-- A contract that inherits from both of them. -/
def twinBottom : Subject :=
  ⟨"pragma solidity 1;import 'a' as A;import 'a' as B;contract R is A, B \x7b\x7d",
    none, none, false⟩

/-- A file is parsed twice for one document if it is reached under two names. -/
theorem file_parsed_twice_under_two_names :
    (Import.flat twinSources).Canonical ∧
    let fresh := start twinBottom (some true)
    let state := afterRootCalls (Import.flat twinSources) fresh [.document 2 (some true)]
    (∃ reports, Course (Import.flat twinSources) fresh reports state) ∧
    ∀ reports, Course (Import.flat twinSources) fresh reports state →
      parsesOfFile reports state "/virtual/a" = 2 := by
  have ran :
      let state := afterRootCalls (Import.flat twinSources) (start twinBottom (some true))
        [.document 2 (some true)]
      ((state.ancestorsOf "/virtual/a").filter state.knowsTree).length = 2 := by
    decide +kernel
  refine ⟨Import.canonical_flat (by decide +kernel), ?_, ?_⟩
  · exact Course.start.rootCalls (.start twinBottom (some true)) _
  · intro reports course
    have accounted := course.accounted (.start twinBottom (some true))
    rw [accounted.parsesOfFile_eq, ran]

end Traversal
end ContractDoc
