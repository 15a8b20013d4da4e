import ContractDoc.Proofs.Traversal.Lineage
import Mathlib.Tactic.MkIffOfInductiveProp

/-!
# The order of parents

Two sources that differ only in the order of parents say the same about everything
else, and flattening succeeds for both or for neither.  The traversal may still return
a document for one of them and not for the other, since a shared ancestor keeps the
lineage along which it was first reached.  This happens only if a file occurs twice on
a chain of parents.
-/

namespace ContractDoc

/-! ## Reordered sources -/

/-- A contract has the same parents in another order, and all else is the same: the
members, their places, and the comments above them in the two sources. -/
@[mk_iff]
structure ContractDecl.Reordered
    (source otherSource : String)
    (decl other : ContractDecl) : Prop where
  other_eq : other = { decl with parents := other.parents }
  perm : other.parents.Perm decl.parents
  comments : ∀ start ∈ decl.start :: decl.body.map Member.start,
    DocComment.find otherSource start = DocComment.find source start

/-- Two files declare the same, but for the order of parents. -/
@[mk_iff]
structure SourceUnit.Reordered
    (source otherSource : String)
    (tree other : SourceUnit) : Prop where
  pragmas_eq : other.pragmas = tree.pragmas
  imports_eq : other.imports = tree.imports
  contracts : List.Forall₂ (ContractDecl.Reordered source otherSource) tree.contracts
    other.contracts

/-- Two sources of one subject declare the same, but for the order of parents. -/
@[mk_iff]
structure Subject.Reordered (first second : Subject) : Prop where
  second_eq : second = { first with source := second.source }
  trees : ∃ tree ∈ (parse first.source).toOption, ∃ other ∈ (parse second.source).toOption,
    tree.Reordered first.source second.source other

instance (source otherSource : String) :
    DecidableRel (ContractDecl.Reordered source otherSource) :=
  fun _ _ => decidable_of_iff _ (ContractDecl.reordered_iff ..).symm

instance (source otherSource : String) :
    DecidableRel (SourceUnit.Reordered source otherSource) :=
  fun _ _ => decidable_of_iff _ (SourceUnit.reordered_iff ..).symm

instance : DecidableRel Subject.Reordered :=
  fun _ _ => decidable_of_iff _ (Subject.reordered_iff ..).symm

namespace ContractDecl.Reordered

variable
  {source otherSource : String}
  {decl other : ContractDecl}

theorem symm (reordered : decl.Reordered source otherSource other) :
    other.Reordered otherSource source decl where
  other_eq := by rw [reordered.other_eq]
  perm := reordered.perm.symm
  comments := by
    rw [reordered.other_eq]
    exact fun start member => (reordered.comments start member).symm

theorem name_eq (reordered : decl.Reordered source otherSource other) :
    other.name = decl.name := by
  rw [reordered.other_eq]

theorem body_eq (reordered : decl.Reordered source otherSource other) :
    other.body = decl.body := by
  rw [reordered.other_eq]

/-- The comment above the contract is the same. -/
theorem comment_eq (reordered : decl.Reordered source otherSource other) :
    DocComment.find otherSource other.start = DocComment.find source decl.start := by
  have start_eq : other.start = decl.start := by rw [reordered.other_eq]
  rw [start_eq]
  exact reordered.comments decl.start List.mem_cons_self

/-- The block of each member is the same. -/
theorem block_eq
    (reordered : decl.Reordered source otherSource other)
    {member : Member}
    (kept : member ∈ decl.body)
    (label : String) :
    Block.ofMember otherSource label member = Block.ofMember source label member := by
  unfold Block.ofMember
  rw [reordered.comments member.start
    (List.mem_cons_of_mem _ (List.mem_map_of_mem kept))]

end ContractDecl.Reordered

/-- The entries of the parents are those of their names, in whatever order. -/
theorem mem_resolveParents
    {names : List String}
    {table : List ImportEntry}
    {name : String}
    {path : Option String} :
    (name, path) ∈ resolveParents names table ↔
      name ∈ names ∧ importPathFor? table name = path := by
  have listed : ∀ key value,
      (key, value) ∈ names.map (fun name => (name, importPathFor? table name)) ↔
        key ∈ names ∧ importPathFor? table key = value := by
    intro key value
    rw [List.mem_map]
    constructor
    · rintro ⟨_, member, ⟨⟩⟩
      exact ⟨member, rfl⟩
    · rintro ⟨member, rfl⟩
      exact ⟨key, member, rfl⟩
  have found : Entries.get? name (resolveParents names table) = some path ↔
      name ∈ names ∧ importPathFor? table name = path := by
    rw [← listed]
    apply Entries.get?_ofList_eq_some_iff
    intro key value other member otherMember
    exact ((listed key value).mp member).2.symm.trans ((listed key other).mp otherMember).2
  rw [← found]
  exact ⟨Entries.get?_of_mem (Entries.nodup_keys_ofList _), Entries.mem_of_get?⟩

namespace Subject

variable {first second : Subject}

/-- The contract of a name is found in reordered ones. -/
theorem rel_find?_reordered
    {source otherSource : String}
    {decls others : List ContractDecl}
    (contracts : List.Forall₂ (ContractDecl.Reordered source otherSource) decls others)
    (name : String) :
    Option.Rel (ContractDecl.Reordered source otherSource)
      (decls.find? (·.name == name)) (others.find? (·.name == name)) := by
  induction contracts with
  | nil => exact .none
  | @cons decl other decls others same rest ih =>
      rw [List.find?_cons, List.find?_cons, same.name_eq]
      split
      · exact .some same
      · exact ih

/-- The same contract is chosen from reordered ones. -/
theorem choose_reordered
    {source otherSource : String}
    {decls others : List ContractDecl}
    (subject : Subject)
    (contracts : List.Forall₂ (ContractDecl.Reordered source otherSource) decls others) :
    (∃ decl other, subject.choose decls = .ok decl ∧ subject.choose others = .ok other ∧
      decl.Reordered source otherSource other) ∨
    ∃ failure, subject.choose decls = .error failure ∧
      subject.choose others = .error failure := by
  unfold choose
  cases subject.contractName with
  | none =>
      cases contracts with
      | nil => exact .inr ⟨_, rfl, rfl⟩
      | cons same rest => exact .inl ⟨_, _, rfl, rfl, same⟩
  | some name =>
      have found := rel_find?_reordered contracts name
      dsimp only
      generalize decls.find? (·.name == name) = decl at found ⊢
      generalize others.find? (·.name == name) = other at found ⊢
      cases found with
      | some same => exact .inl ⟨_, _, rfl, rfl, same⟩
      | none =>
          cases nonempty? (some name) with
          | none => exact .inr ⟨_, rfl, rfl⟩
          | some wanted =>
              cases subject.acceptsFirst with
              | false => exact .inr ⟨_, rfl, rfl⟩
              | true =>
                  cases contracts with
                  | nil => exact .inr ⟨_, rfl, rfl⟩
                  | cons same rest => exact .inl ⟨_, _, rfl, rfl, same⟩

namespace Reordered

theorem symm (reordered : first.Reordered second) : second.Reordered first where
  second_eq := by rw [reordered.second_eq]
  trees := by
    obtain ⟨tree, tree_eq, other, other_eq, alike⟩ := reordered.trees
    refine ⟨other, other_eq, tree, tree_eq, alike.pragmas_eq.symm, alike.imports_eq.symm, ?_⟩
    exact (alike.contracts.imp fun _ _ same => same.symm).flip

/-- Both sources are parsed, into reordered trees. -/
theorem plainTree (reordered : first.Reordered second) :
    ∃ tree other, first.plainTree = .ok tree ∧ second.plainTree = .ok other ∧
      tree.Reordered first.source second.source other := by
  have tree_of_parse : ∀ {subject : Subject} {tree : SourceUnit},
      tree ∈ (parse subject.source).toOption → subject.plainTree = .ok tree := by
    intro subject tree parsed
    unfold Subject.plainTree
    cases result : parse subject.source with
    | error error =>
        rw [result] at parsed
        cases parsed
    | ok found =>
        rw [result] at parsed
        exact congrArg Except.ok (Option.some.inj parsed)
  obtain ⟨tree, parsed, other, otherParsed, alike⟩ := reordered.trees
  exact ⟨tree, other, tree_of_parse parsed, tree_of_parse otherParsed, alike⟩

/-- The same contract is documented, or none for the same cause. -/
theorem plainContract (reordered : first.Reordered second) :
    (∃ decl other, first.plainContract = .ok decl ∧ second.plainContract = .ok other ∧
      decl.Reordered first.source second.source other) ∨
    ∃ failure, first.plainContract = .error failure ∧
      second.plainContract = .error failure := by
  obtain ⟨tree, other, tree_eq, other_eq, alike⟩ := reordered.plainTree
  have choices := first.choose_reordered alike.contracts
  unfold Subject.plainContract
  rw [tree_eq, other_eq, reordered.second_eq]
  exact choices

/-- What is derived alike from reordered contracts is the same. -/
theorem bind_plainContract
    {α : Type}
    {derive deriveOther : ContractDecl → Except Failure α}
    (reordered : first.Reordered second)
    (alike : ∀ decl other, decl.Reordered first.source second.source other →
      deriveOther other = derive decl) :
    second.plainContract >>= deriveOther = first.plainContract >>= derive := by
  rcases reordered.plainContract with ⟨decl, other, decl_eq, other_eq, same⟩ |
    ⟨failure, fails, otherFails⟩
  · rw [decl_eq, other_eq]
    exact alike decl other same
  · rw [fails, otherFails]
    rfl

theorem plainName_eq (reordered : first.Reordered second) :
    second.plainName = first.plainName := by
  apply reordered.bind_plainContract
  intro decl other same
  rw [same.name_eq]

theorem plainTags_eq (reordered : first.Reordered second) :
    second.plainTags = first.plainTags := by
  apply reordered.bind_plainContract
  intro decl other same
  unfold tagsOf
  rw [same.comment_eq, same.name_eq]

theorem plainConstructor_eq (reordered : first.Reordered second) :
    second.plainConstructor = first.plainConstructor := by
  apply reordered.bind_plainContract
  intro decl other same
  rw [same.name_eq, same.body_eq]
  apply congrArg Except.ok
  apply Option.map_congr
  intro member isFirst
  exact same.block_eq (List.mem_of_mem_filter (List.mem_of_mem_head? isFirst)) _

theorem plainBlocks_eq (reordered : first.Reordered second) (kind : MemberKind) :
    second.plainBlocks kind = first.plainBlocks kind := by
  apply reordered.bind_plainContract
  intro decl other same
  rw [same.name_eq, same.body_eq]
  unfold Block.table
  apply congrArg fun blocks => Except.ok (Entries.ofList blocks)
  apply List.map_congr_left
  intro member selected
  rw [same.block_eq (List.mem_of_mem_filter selected)]

theorem plainPragma_eq (reordered : first.Reordered second) :
    second.plainPragma = first.plainPragma := by
  obtain ⟨tree, other, tree_eq, other_eq, alike⟩ := reordered.plainTree
  unfold plainPragma
  rw [tree_eq, other_eq]
  change second.constraintOf other.pragmas = first.constraintOf tree.pragmas
  rw [alike.pragmas_eq, reordered.second_eq]
  rfl

theorem plainImports_eq (reordered : first.Reordered second) :
    second.plainImports = first.plainImports := by
  obtain ⟨tree, other, tree_eq, other_eq, alike⟩ := reordered.plainTree
  unfold plainImports
  rw [tree_eq, other_eq]
  change Except.ok (importTable other.imports) = .ok (importTable tree.imports)
  rw [alike.imports_eq]

/-- What is said about the contract and about the file is the same. -/
theorem plainContractInfo_eq (reordered : first.Reordered second) :
    second.plainContractInfo = first.plainContractInfo := by
  unfold plainContractInfo
  rw [reordered.plainConstructor_eq, reordered.plainName_eq, reordered.plainTags_eq]

theorem plainSourceInfo_eq (reordered : first.Reordered second) :
    second.plainSourceInfo = first.plainSourceInfo := by
  unfold plainSourceInfo
  rw [reordered.plainPragma_eq, reordered.plainImports_eq]

/-- The parents are listed with the same entries, in another order. -/
theorem plainParents
    {parents : Entries String (Option String)}
    (reordered : first.Reordered second)
    (listed : first.plainParents = .ok parents) :
    ∃ others, second.plainParents = .ok others ∧
      ∀ entry, entry ∈ others ↔ entry ∈ parents := by
  obtain ⟨decl, decl_eq, listed⟩ := bind_eq_ok.mp listed
  obtain ⟨table, table_eq, listed⟩ := bind_eq_ok.mp listed
  obtain rfl := Except.ok.inj listed
  rcases reordered.plainContract with ⟨found, other, found_eq, other_eq, same⟩ |
    ⟨failure, fails, _⟩
  · obtain rfl : decl = found := Except.ok.inj (decl_eq.symm.trans found_eq)
    refine ⟨resolveParents other.parents table, ?_, ?_⟩
    · unfold Subject.plainParents
      rw [other_eq, reordered.plainImports_eq, table_eq]
      rfl
    · rintro ⟨name, path⟩
      rw [mem_resolveParents, mem_resolveParents, same.perm.mem_iff]
  · rw [fails] at decl_eq
    cases decl_eq

/-- The document of the contract alone is the same, but for the order of its parents. -/
theorem plainDocument
    {own : Document}
    (reordered : first.Reordered second)
    (documents : first.plainDocument = .ok own) :
    ∃ parents, second.plainDocument = .ok { own with parents } := by
  obtain ⟨contract_eq, source_eq, listed, sections_eq⟩ := plainDocument_eq_ok_iff.mp documents
  obtain ⟨parents, parents_eq, _⟩ := reordered.plainParents listed
  refine ⟨parents, plainDocument_eq_ok_iff.mpr ?_⟩
  rw [reordered.plainContractInfo_eq, reordered.plainSourceInfo_eq,
    reordered.plainBlocks_eq, reordered.plainBlocks_eq, reordered.plainBlocks_eq]
  exact ⟨contract_eq, source_eq, parents_eq, sections_eq⟩

/-- The parents that are declared stay declared. -/
theorem declares
    {name importPath : String}
    (reordered : first.Reordered second)
    (declares : first.Declares name importPath) :
    second.Declares name importPath := by
  cases listed : first.plainParents with
  | error failure =>
      unfold Declares declaredParents at declares
      rw [listed] at declares
      cases declares
  | ok parents =>
      obtain ⟨others, others_eq, same⟩ := reordered.plainParents listed
      rw [declares_iff others_eq, same]
      exact (declares_iff listed name importPath).mp declares

theorem filePath_eq (reordered : first.Reordered second) :
    second.filePath = first.filePath := by
  rw [reordered.second_eq]

/-- The contract inherits from the same parents. -/
theorem inheritsFrom
    {resolver : ImportResolver}
    {parent : Subject}
    (reordered : first.Reordered second)
    (inherits : first.InheritsFrom resolver parent) :
    second.InheritsFrom resolver parent := by
  obtain ⟨name, importPath, resolved, declares, answer, parent_eq⟩ :=
    inheritsFrom_iff.mp inherits
  rw [← reordered.filePath_eq] at answer
  exact inheritsFrom_iff.mpr
    ⟨name, importPath, resolved, reordered.declares declares, answer, parent_eq⟩

/-- The chains of parents are the same. -/
theorem isChain
    {resolver : ImportResolver}
    {chain : List Subject}
    (reordered : first.Reordered second)
    (isChain : (first :: chain).IsChain (InheritsFrom resolver)) :
    (second :: chain).IsChain (InheritsFrom resolver) := by
  rw [List.isChain_cons] at isChain ⊢
  exact ⟨fun parent isHead => reordered.inheritsFrom (isChain.1 parent isHead), isChain.2⟩

/-- A chain of parents goes through the same files. -/
theorem files_eq (reordered : first.Reordered second) (chain : List Subject) :
    files (second :: chain) = files (first :: chain) := by
  unfold files
  rw [List.filterMap_cons, List.filterMap_cons, reordered.filePath_eq]

/-- A flat document does not depend on the order of parents to be there. -/
theorem flatten
    {resolver : ImportResolver}
    {depth : Nat}
    (reordered : first.Reordered second)
    (flat : ∃ document, first.flatten resolver depth = .ok document) :
    ∃ document, second.flatten resolver depth = .ok document := by
  cases depth with
  | zero =>
      obtain ⟨document, flat⟩ := flat
      cases flat
  | succ depth =>
      obtain ⟨⟨own, own_eq⟩, parents⟩ := exists_flatten_succ_iff.mp flat
      obtain ⟨others, other_eq⟩ := reordered.plainDocument own_eq
      refine exists_flatten_succ_iff.mpr ⟨⟨_, other_eq⟩, ?_⟩
      intro name importPath declares
      rw [reordered.filePath_eq]
      exact parents name importPath (reordered.symm.declares declares)

end Reordered
end Subject

namespace Traversal

/-! ## Documents of reordered sources -/

section Reordered

variable
  {resolver : ImportResolver}
  {first second : Subject}
  {mergesParents : Option Bool}
  {depth : Nat}
  {document : Document}

/-- A contract for which a fresh root returns a document has a flat one. -/
theorem flatten_of_document_start
    {subject : Subject}
    (canonical : resolver.Canonical)
    (returns : (outcome (Traversal.document resolver depth .root (some true))
      (start subject mergesParents)).1 = .ok document) :
    subject.flatten resolver depth = .ok document :=
  Sound.flatten_of_document canonical (.start subject mergesParents)
    (.start subject mergesParents) (has_root _) rfl (Prod.ext returns rfl) (Nat.le_refl depth)

/-- If a document is returned for one order of parents, it is returned for every other
one, or a circle is reported. -/
theorem document_of_reordered
    (canonical : resolver.Canonical)
    (reordered : first.Reordered second)
    (returns : (outcome (Traversal.document resolver depth .root (some true))
      (start first mergesParents)).1 = .ok document) :
    let result := (outcome (Traversal.document resolver depth .root (some true))
      (start second mergesParents)).1
    (∃ document, result = .ok document) ∨
      ∃ failure, result = .error failure ∧ failure.ReportsCircle resolver second := by
  intro result
  have flat := reordered.flatten ⟨document, flatten_of_document_start canonical returns⟩
  cases result_eq : result with
  | ok document => exact .inl ⟨document, rfl⟩
  | error failure =>
      right
      refine ⟨failure, rfl, ?_⟩
      exact (Reached.start resolver second mergesParents).reportsCircle_of_document canonical
        (has_root _) flat (Prod.ext result_eq rfl)

end Reordered

/-- If a fresh root returns a document with the members of its parents, it does so for every
order of the parents, unless it reports a chain of parents on which a file occurs twice.
Whether a document is returned therefore does not depend on the order, if no such chain exists,
or if a parent occurs twice on a chain.  A parent that occurs twice keeps flattening from
ending, in either order. -/
theorem document_returned_in_any_order
    (resolver : ImportResolver)
    (canonical : resolver.Canonical)
    (first second : Subject)
    (reordered : first.Reordered second)
    (mergesParents : Option Bool)
    (depth : Nat) :
    let run := fun subject =>
      (outcome (document resolver depth .root (some true)) (start subject mergesParents)).1
    (∀ document, run first = .ok document →
      (∃ other, run second = .ok other) ∨
        ∃ chain, (second :: chain).IsChain (Subject.InheritsFrom resolver) ∧
          ¬(Subject.files (second :: chain)).Nodup ∧
            run second = .error (.circularInheritance (Subject.files (second :: chain)))) ∧
    ((∀ chain, (first :: chain).IsChain (Subject.InheritsFrom resolver) →
        (Subject.files (first :: chain)).Nodup) ∨
      (∃ chain, (first :: chain).IsChain (Subject.InheritsFrom resolver) ∧
        ¬(chain.map Subject.ancestorKey).Nodup) →
      ((∃ document, run first = .ok document) ↔ ∃ document, run second = .ok document)) := by
  intro run
  refine ⟨?_, ?_⟩
  · intro document returns
    rcases document_of_reordered canonical reordered returns with returned |
      ⟨failure, fails, chain, isChain, repeats, rfl⟩
    · exact .inl returned
    · exact .inr ⟨chain, isChain, repeats, fails⟩
  · rintro (distinct | ⟨chain, isChain, repeats⟩)
    · constructor
      · rintro ⟨document, returns⟩
        rcases document_of_reordered canonical reordered returns with returned |
          ⟨failure, _, chain, isChain, repeats, _⟩
        · exact returned
        · rw [reordered.files_eq] at repeats
          exact absurd (distinct chain (reordered.symm.isChain isChain)) repeats
      · rintro ⟨document, returns⟩
        rcases document_of_reordered canonical reordered.symm returns with returned |
          ⟨failure, _, chain, isChain, repeats, _⟩
        · exact returned
        · exact absurd (distinct chain isChain) repeats
    · have unreturned : ∀ subject chain, (subject :: chain).IsChain
          (Subject.InheritsFrom resolver) → ¬(chain.map Subject.ancestorKey).Nodup →
            ¬∃ document, run subject = .ok document := by
        rintro subject chain isChain repeats ⟨document, returns⟩
        have flat := flatten_of_document_start canonical returns
        exact repeats
          (Subject.nodup_ancestorKeys canonical (Subject.acc_of_flatten flat) isChain)
      exact iff_of_false (unreturned first chain isChain repeats)
        (unreturned second chain (reordered.isChain isChain) repeats)

/-- A contract with two parents. -/
def twoParents : Subject :=
  ⟨"pragma solidity 1;import 'A';import 'B';contract R is A, B {}", some "/d/r", none, false⟩

/-- The contract with its parents in the other order. -/
def swappedParents : Subject :=
  ⟨"pragma solidity 1;import 'A';import 'B';contract R is B, A {}", some "/d/r", none, false⟩

theorem reordered_swappedParents : twoParents.Reordered swappedParents := by
  decide +kernel

/-- Sources in which the two parents share a parent of their own. -/
def jointSources : Entries String Import.StoredSource := [
  ("A", ⟨"pragma solidity 1;import 'C';contract A is C {}", some "/a"⟩),
  ("B", ⟨"pragma solidity 1;import 'C';contract B is C {}", some "/b"⟩),
  ("C", ⟨"pragma solidity 1;contract C {}", some "/c"⟩)]

/-- The shared parent is built for the one child or for the other, and a document is
returned in both orders. -/
theorem joint_parent_in_both_orders :
    (Import.flat jointSources).Canonical ∧ twoParents.Reordered swappedParents ∧
      ∃ merged, (outcome (document (Import.flat jointSources) maxDepth .root (some true))
        (start swappedParents none)).1 = .ok merged := by
  let found := fun child : Subject =>
    child.parentsFound (Import.flat jointSources) [child.filePath]
  have facts :
      (∀ first ∈ jointSources, ∀ second ∈ jointSources,
        (Import.flatAnswer first).path = (Import.flatAnswer second).path →
          Import.flatAnswer first = Import.flatAnswer second) ∧
      (∀ child ∈ found twoParents, (Subject.files [twoParents, child]).Nodup ∧
        ∀ parent ∈ found child, (Subject.files [twoParents, child, parent]).Nodup ∧
          found parent = []) ∧
      (outcome (document (Import.flat jointSources) maxDepth .root (some true))
        (start twoParents none)).1.toOption.isSome := by
    decide +kernel
  obtain ⟨distinct, chains, returned⟩ := facts
  have canonical := Import.canonical_flat distinct
  have order := document_returned_in_any_order _ canonical twoParents swappedParents
    reordered_swappedParents none maxDepth
  refine ⟨canonical, reordered_swappedParents, (order.2 (.inl ?_)).mp ?_⟩
  · intro chain isChain
    rcases chain with _ | ⟨child, _ | ⟨parent, _ | ⟨next, rest⟩⟩⟩
    · exact List.nodup_singleton _
    · obtain ⟨below, _⟩ := List.isChain_cons_cons.mp isChain
      exact (chains child below).1
    · obtain ⟨below, isChain⟩ := List.isChain_cons_cons.mp isChain
      obtain ⟨between, _⟩ := List.isChain_cons_cons.mp isChain
      exact ((chains child below).2 parent between).1
    · obtain ⟨below, isChain⟩ := List.isChain_cons_cons.mp isChain
      obtain ⟨between, isChain⟩ := List.isChain_cons_cons.mp isChain
      obtain ⟨above, _⟩ := List.isChain_cons_cons.mp isChain
      change next ∈ found parent at above
      rw [((chains child below).2 parent between).2] at above
      cases above
  · cases result : (outcome (document (Import.flat jointSources) maxDepth .root (some true))
      (start twoParents none)).1 with
    | error failure =>
        rw [result] at returned
        cases returned
    | ok merged => exact ⟨merged, result⟩

/-! ## Orders that matter -/

/-- A document is returned for one order of parents, and none for the other. -/
def OrderMatters
    (resolver : ImportResolver)
    (first second : Subject)
    (failure : Failure) : Prop :=
  let run := fun subject =>
    (outcome (document resolver maxDepth .root (some true)) (start subject none)).1
  (run first).toOption.isSome ∧ run second = .error failure

instance (resolver : ImportResolver) (first second : Subject) (failure : Failure) :
    Decidable (OrderMatters resolver first second failure) :=
  inferInstanceAs (Decidable (_ ∧ _))

/-- Sources two of which have the same canonical path, one of them without a pragma. -/
def unevenSources : Entries String Import.StoredSource := [
  ("A", ⟨"pragma solidity 1;contract A {}", some "/a"⟩),
  ("a", ⟨"contract A {}", some "/a"⟩),
  ("B", ⟨"pragma solidity 1;import 'a' as A;contract B is A {}", some "/b"⟩)]

/-- Sources of two parents, one of which inherits from the other. -/
def nestedSources : Entries String Import.StoredSource := [
  ("A", ⟨"pragma solidity 1;contract A {}", some "/a"⟩),
  ("B", ⟨"pragma solidity 1;import 'A';contract B is A {}", some "/d/b"⟩)]

/-- A resolver that finds `A` for one file of a directory and not for another one. -/
def hidingResolver : ImportResolver := fun importPath importer =>
  if importPath = "A" ∧ importer = some "/d/b" then .unresolved importPath importer
  else Import.flat nestedSources importPath importer

/-- The source of a file that has a contract below `B` and a contract above `B`. -/
def crossingFile : Import.StoredSource :=
  ⟨"pragma solidity 1;import 'B';contract A is B {} contract X {}", some "/a"⟩

/-- Sources in which a file occurs twice on a chain of parents. -/
def crossingSources : Entries String Import.StoredSource := [
  ("A", crossingFile),
  ("B", ⟨"pragma solidity 1;import 'x' as X;contract B is X {}", some "/b"⟩),
  ("x", crossingFile)]

/-- The order of parents decides whether a document is returned, if the resolver has two
sources for one path, or two answers in one directory, or if a file occurs twice on
a chain of parents and the ancestor that would notice it was built along another chain. -/
theorem parent_order_matters :
    twoParents.Reordered swappedParents ∧
    ((Import.flat unevenSources).Within ["/a", "/a", "/b"] ∧
      OrderMatters (Import.flat unevenSources) twoParents swappedParents
        (.missingPragma "/a")) ∧
    (hidingResolver.Within ["/a", "/d/b"] ∧
      OrderMatters hidingResolver twoParents swappedParents
        (.unresolvedImport "A" (some "/d/b"))) ∧
    (Import.flat crossingSources).Canonical ∧
      (Import.flat crossingSources).Within ["/a", "/b", "/a"] ∧
      OrderMatters (Import.flat crossingSources) swappedParents twoParents
        (.circularInheritance ["/d/r", "/a", "/b", "/a"]) := by
  have facts :
      (∀ sources ∈ [unevenSources, nestedSources, crossingSources], ∀ entry ∈ sources,
        (Import.flatAnswer entry).path ≠ "") ∧
      (∀ first ∈ crossingSources, ∀ second ∈ crossingSources,
        (Import.flatAnswer first).path = (Import.flatAnswer second).path →
          Import.flatAnswer first = Import.flatAnswer second) ∧
      OrderMatters (Import.flat unevenSources) twoParents swappedParents
        (.missingPragma "/a") ∧
      OrderMatters hidingResolver twoParents swappedParents
        (.unresolvedImport "A" (some "/d/b")) ∧
      OrderMatters (Import.flat crossingSources) swappedParents twoParents
        (.circularInheritance ["/d/r", "/a", "/b", "/a"]) := by
    decide +kernel
  obtain ⟨nonempty, distinct, uneven, hidden, crossing⟩ := facts
  rw [List.forall_mem_cons, List.forall_mem_cons, List.forall_mem_singleton] at nonempty
  obtain ⟨unevenNonempty, nestedNonempty, crossingNonempty⟩ := nonempty
  have nestedWithin := Import.within_flat nestedNonempty
  refine ⟨reordered_swappedParents, ⟨Import.within_flat unevenNonempty, uneven⟩,
    ⟨⟨?_, ?_⟩, hidden⟩, Import.canonical_flat distinct,
    Import.within_flat crossingNonempty, crossing⟩
  · intro importPath importer resolved answer
    unfold hidingResolver at answer
    split at answer
    · cases answer
    · exact nestedWithin.path_ne answer
  · intro importPath importer resolved answer
    unfold hidingResolver at answer
    split at answer
    · cases answer
    · exact nestedWithin.path_mem answer

end Traversal
end ContractDoc
