import ContractDoc.Proofs.Traversal.Confinement
import ContractDoc.Proofs.Traversal.Exploration
import ContractDoc.Proofs.Traversal.Flatten

/-!
# Documents of a fresh root

A document that is made on a fresh root always ends, if the canonical paths of all
answers are among given ones.  If the resolver is canonical, no document is returned
for a contract that has a chain of parents on which a parent occurs twice.
-/

namespace ContractDoc

open Relation

namespace Subject

variable
  {resolver : ImportResolver}
  {subject child parent : Subject}

/-- A contract inherits from another one, which the resolver names for a declared
parent. -/
def InheritsFrom (resolver : ImportResolver) (child parent : Subject) : Prop :=
  parent ∈ child.parentsFound resolver [child.filePath]

instance (resolver : ImportResolver) : DecidableRel (InheritsFrom resolver) :=
  fun child parent => inferInstanceAs (Decidable (parent ∈ child.parentsFound _ _))

theorem inheritsFrom_iff :
    child.InheritsFrom resolver parent ↔
      ∃ name importPath resolved, child.Declares name importPath ∧
        (resolver importPath child.filePath).result = .ok resolved ∧
          parent = ofParent name resolved := by
  unfold InheritsFrom
  rw [mem_parentsFound]
  simp only [List.mem_singleton, exists_eq_left, exists_and_left]

/-- Flattening follows all chains of parents to their ends. -/
theorem acc_of_flatten
    {depth : Nat}
    {document : Document}
    (flat : subject.flatten resolver depth = .ok document) :
    Acc (fun parent child => InheritsFrom resolver child parent) subject := by
  induction depth generalizing subject document with
  | zero => cases flat
  | succ depth ih =>
      obtain ⟨_, parents⟩ := exists_flatten_succ_iff.mp ⟨document, flat⟩
      refine .intro subject fun parent inherits => ?_
      obtain ⟨name, importPath, resolved, declares, answer, rfl⟩ := inheritsFrom_iff.mp inherits
      obtain ⟨found, found_eq, parentDocument, parent_eq⟩ := parents name importPath declares
      obtain rfl : resolved = found := Except.ok.inj (answer.symm.trans found_eq)
      exact ih parent_eq

/-- No circle is met on the way up from a contract whose chains of parents all end. -/
theorem not_transGen_self
    (ends : Acc (fun parent child => InheritsFrom resolver child parent) subject)
    {ancestor : Subject}
    (way : ReflTransGen (InheritsFrom resolver) subject ancestor) :
    ¬TransGen (InheritsFrom resolver) ancestor ancestor := by
  induction ends generalizing ancestor with
  | intro subject _ ih =>
      intro circle
      rcases way.cases_head with rfl | ⟨next, inherits, rest⟩
      · obtain ⟨next, inherits, back⟩ := TransGen.head'_iff.mp circle
        exact ih next inherits .refl (TransGen.tail' back inherits)
      · exact ih next inherits rest circle

/-- With a canonical resolver a parent is told by its key. -/
theorem eq_of_ancestorKey_eq
    (canonical : resolver.Canonical)
    {first second firstChild secondChild : Subject}
    (inheritsFirst : firstChild.InheritsFrom resolver first)
    (inheritsSecond : secondChild.InheritsFrom resolver second)
    (same : first.ancestorKey = second.ancestorKey) :
    first = second := by
  obtain ⟨name, _, resolved, _, answer, rfl⟩ := inheritsFrom_iff.mp inheritsFirst
  obtain ⟨otherName, _, other, _, otherAnswer, rfl⟩ := inheritsFrom_iff.mp inheritsSecond
  obtain ⟨path_eq, name_eq⟩ := AncestorKey.mk.inj same
  change name = otherName at name_eq
  rw [canonical.oneSource answer otherAnswer path_eq, name_eq]

/-- On a chain of parents that all end, no parent occurs twice. -/
theorem nodup_ancestorKeys
    (canonical : resolver.Canonical)
    (ends : Acc (fun parent child => InheritsFrom resolver child parent) subject)
    {chain : List Subject}
    (isChain : (subject :: chain).IsChain (InheritsFrom resolver)) :
    (chain.map ancestorKey).Nodup := by
  have ways : (subject :: chain).Pairwise (TransGen (InheritsFrom resolver)) :=
    List.isChain_iff_pairwise.mp (isChain.imp fun _ _ => TransGen.single)
  obtain ⟨fromSubject, pairwise⟩ := List.pairwise_cons.mp ways
  refine List.pairwise_map.mpr (pairwise.imp_of_mem ?_)
  intro first second firstMember secondMember way same
  obtain ⟨firstChild, _, inheritsFirst⟩ := TransGen.tail'_iff.mp (fromSubject first firstMember)
  obtain ⟨secondChild, _, inheritsSecond⟩ := TransGen.tail'_iff.mp way
  have equal := eq_of_ancestorKey_eq canonical inheritsFirst inheritsSecond same
  rw [← equal] at way
  exact not_transGen_self ends (fromSubject first firstMember).to_reflTransGen way

end Subject

namespace Traversal

/-- A document with the members of parents that is made on a fresh root ends, whatever
the resolver answers among finitely many paths, and no chain of links ever goes in
a circle.  If the resolver is canonical, a contract with a chain of parents on which
a parent occurs twice has no document. -/
theorem document_ends_and_refuses_circles
    (resolver : ImportResolver)
    (paths : List String)
    (within : resolver.Within paths)
    (subject : Subject)
    (mergesParents : Option Bool) :
    let fresh := start subject mergesParents
    let run := fun depth => outcome (document resolver depth .root (some true)) fresh
    (∃ depth, Settled resolver depth .root (some true) fresh ∧
      ∀ levels, depth ≤ levels → run levels = run depth) ∧
    (∀ depth, ¬(run depth).2.Circular) ∧
    (resolver.Canonical →
      (∃ chain, (subject :: chain).IsChain (Subject.InheritsFrom resolver) ∧
        ¬(chain.map Subject.ancestorKey).Nodup) →
      ∀ depth, ∃ failure, (run depth).1 = .error failure) := by
  intro fresh run
  have acyclic : ∀ depth, ¬(run depth).2.Circular :=
    not_circular_document_start within subject mergesParents (some true)
  refine ⟨?_, acyclic, ?_⟩
  · obtain ⟨depth, settled⟩ := Passage.start.ends_of_not_circular (List.forall_mem_nil _)
      within (has_root fresh) acyclic
    exact ⟨depth, settled, fun levels enough => settled.outcome_eq enough⟩
  · rintro canonical ⟨chain, isChain, repeated⟩ depth
    rcases returns : run depth with ⟨result, after⟩
    cases result with
    | error failure => exact ⟨failure, rfl⟩
    | ok document =>
        have flat := Sound.flatten_of_document canonical (.start subject mergesParents)
          (.start subject mergesParents) (has_root fresh) rfl returns (Nat.le_refl depth)
        exact absurd
          (Subject.nodup_ancestorKeys canonical (Subject.acc_of_flatten flat) isChain) repeated

/-- A source that names its own canonical path. -/
def storedAt (resolved : ResolvedImport) : Import.StoredSource :=
  ⟨resolved.source, some resolved.path⟩

/-- A contract that inherits from `B`, which inherits from it. -/
def mutualA : ResolvedImport :=
  ⟨"pragma solidity 1;import 'B';contract A is B {}", "/a"⟩

/-- A contract that inherits from `A`, which inherits from it. -/
def mutualB : ResolvedImport :=
  ⟨"pragma solidity 1;import 'A';contract B is A {}", "/b"⟩

/-- The sources of two contracts that inherit from each other. -/
def mutualSources : Entries String Import.StoredSource :=
  [("A", storedAt mutualA), ("B", storedAt mutualB)]

/-- A contract below two that inherit from each other. -/
def mutualBottom : Subject :=
  ⟨"pragma solidity 1;import 'A';contract R is A {}", none, none, false⟩

/-- A chain of parents on which `A` occurs twice. -/
def mutualChain : List Subject :=
  [.ofParent "A" mutualA, .ofParent "B" mutualB, .ofParent "A" mutualA]

/-- The contract has no document, since a parent occurs twice on a chain. -/
theorem mutual_parents_refused :
    ((mutualBottom :: mutualChain).IsChain (Subject.InheritsFrom (Import.flat mutualSources)) ∧
      ¬(mutualChain.map Subject.ancestorKey).Nodup) ∧
    ∀ depth, ∃ failure,
      (outcome (document (Import.flat mutualSources) depth .root (some true))
        (start mutualBottom none)).1 = .error failure := by
  have facts :
      ((mutualBottom :: mutualChain).IsChain
          (Subject.InheritsFrom (Import.flat mutualSources)) ∧
        ¬(mutualChain.map Subject.ancestorKey).Nodup) ∧
      (∀ entry ∈ mutualSources, (Import.flatAnswer entry).path ≠ "") ∧
      (∀ first ∈ mutualSources, ∀ second ∈ mutualSources,
        (Import.flatAnswer first).path = (Import.flatAnswer second).path →
          Import.flatAnswer first = Import.flatAnswer second) := by
    decide +kernel
  obtain ⟨repeats, nonempty, distinct⟩ := facts
  have ends := document_ends_and_refuses_circles _ _ (Import.within_flat nonempty) mutualBottom
    none
  exact ⟨repeats, ends.2.2 (Import.canonical_flat distinct) ⟨mutualChain, repeats⟩⟩

/-- A parent occurs twice on a chain of parents, and the document is returned all the
same. -/
def ReturnsDespite (resolver : ImportResolver) (subject : Subject) (chain : List Subject) :
    Prop :=
  (subject :: chain).IsChain (Subject.InheritsFrom resolver) ∧
    ¬(chain.map Subject.ancestorKey).Nodup ∧
      (outcome (document resolver 4 .root (some true)) (start subject none)).1.toOption.isSome

instance (resolver : ImportResolver) (subject : Subject) (chain : List Subject) :
    Decidable (ReturnsDespite resolver subject chain) :=
  inferInstanceAs (Decidable (_ ∧ _ ∧ _))

/-- A contract that inherits from `U`.  Its path has a second source. -/
def twofoldT : ResolvedImport :=
  ⟨"pragma solidity 1;import 'U';contract T is U {}", "/t"⟩

/-- A contract that inherits from `T`, by the first of the two sources. -/
def twofoldU : ResolvedImport :=
  ⟨"pragma solidity 1;import 't1' as T;contract U is T {}", "/u"⟩

/-- Sources two of which have the same canonical path. -/
def twofoldSources : Entries String Import.StoredSource := [
  ("V", ⟨"pragma solidity 1;import 't2' as T;contract V is T {}", some "/v"⟩),
  ("t2", ⟨"pragma solidity 1;contract T {}", some "/t"⟩),
  ("t1", storedAt twofoldT),
  ("U", storedAt twofoldU)]

/-- A contract that reaches both sources of `T`. -/
def twofoldBottom : Subject :=
  ⟨"pragma solidity 1;import 'V';import 't1' as T;contract R is V, T {}",
    none, none, false⟩

/-- A contract that inherits from `B`, and that only the file of `B` finds. -/
def sidedX : ResolvedImport :=
  ⟨"pragma solidity 1;import 'B';contract X is B {}", "/x"⟩

/-- A contract that inherits from `X`, as another one in its directory does. -/
def sidedB : ResolvedImport :=
  ⟨"pragma solidity 1;import 'X';contract B is X {}", "/d/b"⟩

/-- The sources that all files find. -/
def sidedSources : Entries String Import.StoredSource :=
  [("B", storedAt sidedB), ("X", ⟨"pragma solidity 1;contract X {}", some "/y"⟩)]

/-- A resolver that answers one file of a directory in another way. -/
def sidedResolver : ImportResolver := fun importPath importer =>
  if importPath = "X" ∧ importer = some "/d/b" then ⟨[], .ok sidedX⟩
  else Import.flat sidedSources importPath importer

/-- A contract that finds another `X` than `B` does, in the same directory. -/
def sidedBottom : Subject :=
  ⟨"pragma solidity 1;import 'X';import 'B';contract R is X, B {}",
    some "/d/r", none, false⟩

/-- A resolver that has two sources for one path, or two answers in one directory, can
keep a parent that occurs twice from being noticed. -/
theorem repeated_parent_unnoticed :
    ((Import.flat twofoldSources).Within ["/v", "/t", "/t", "/u"] ∧
      ReturnsDespite (Import.flat twofoldSources) twofoldBottom
        [.ofParent "T" twofoldT, .ofParent "U" twofoldU, .ofParent "T" twofoldT]) ∧
    sidedResolver.Within ["/x", "/d/b", "/y"] ∧
      ReturnsDespite sidedResolver sidedBottom
        [.ofParent "B" sidedB, .ofParent "X" sidedX, .ofParent "B" sidedB] := by
  have facts :
      (∀ entry ∈ twofoldSources, (Import.flatAnswer entry).path ≠ "") ∧
      (∀ entry ∈ sidedSources, (Import.flatAnswer entry).path ≠ "") ∧
      ReturnsDespite (Import.flat twofoldSources) twofoldBottom
        [.ofParent "T" twofoldT, .ofParent "U" twofoldU, .ofParent "T" twofoldT] ∧
      ReturnsDespite sidedResolver sidedBottom
        [.ofParent "B" sidedB, .ofParent "X" sidedX, .ofParent "B" sidedB] := by
    decide +kernel
  obtain ⟨twofoldNonempty, sidedNonempty, twofold, sided⟩ := facts
  have sidedWithin := Import.within_flat sidedNonempty
  refine ⟨⟨Import.within_flat twofoldNonempty, twofold⟩, ⟨?_, ?_⟩, sided⟩
  · intro importPath importer resolved answer
    unfold sidedResolver at answer
    split at answer
    · rw [← Except.ok.inj answer]
      decide
    · exact sidedWithin.path_ne answer
  · intro importPath importer resolved answer
    unfold sidedResolver at answer
    split at answer
    · rw [← Except.ok.inj answer]
      exact List.mem_cons_self
    · exact List.mem_cons_of_mem _ (sidedWithin.path_mem answer)

end Traversal
end ContractDoc
