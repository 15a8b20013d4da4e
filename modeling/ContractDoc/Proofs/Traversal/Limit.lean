import ContractDoc.Proofs.Traversal.Link
import Mathlib.Data.List.Chain
import Mathlib.Data.List.Perm.Subperm

/-!
# Documents that end

Parents are followed at most a given number of levels up.  Making a document ends if
it does not matter what happens at some limit, since the limit is not reached; then
all higher limits give the same outcome.  A limit that is reached leaves a chain of
links that is as long as the limit is high.
-/

namespace ContractDoc
namespace Traversal

open Relation

/-- The document of a model, made with some other step in the place of the limit. -/
def documentOr
    (resolver : ImportResolver)
    (limit : ModelRef → Option Bool → Step Document) :
    (depth : Nat) → ModelRef → (merge : Option Bool) → Step Document
  | 0, ref, merge => limit ref merge
  | depth + 1, ref, merge =>
      documentFrom resolver
        (fun parentRef => documentOr resolver limit depth parentRef none) ref merge

/-- A higher limit is a lower one at which the document is made in earnest. -/
theorem document_add
    (resolver : ImportResolver)
    (more depth : Nat)
    (ref : ModelRef)
    (merge : Option Bool) :
    document resolver (more + depth) ref merge =
      documentOr resolver (document resolver more) depth ref merge := by
  induction depth generalizing ref merge with
  | zero => rfl
  | succ depth ih =>
      rw [← Nat.add_assoc, document_succ, documentOr]
      simp only [ih]

/-- A document is settled below a limit if its outcome is the same whatever stands in
the place of the limit. -/
def Settled
    (resolver : ImportResolver)
    (depth : Nat)
    (ref : ModelRef)
    (merge : Option Bool)
    (state : Traversal) : Prop :=
  ∀ limit, outcome (documentOr resolver limit depth ref merge) state =
    outcome (document resolver depth ref merge) state

/-- Making a document ends if the document is settled below some limit. -/
def Ends
    (resolver : ImportResolver)
    (ref : ModelRef)
    (merge : Option Bool)
    (state : Traversal) : Prop :=
  ∃ depth, Settled resolver depth ref merge state

/-- Above the limit below which a document is settled all limits are alike. -/
theorem Settled.outcome_eq
    {resolver : ImportResolver}
    {depth : Nat}
    {ref : ModelRef}
    {merge : Option Bool}
    {state : Traversal}
    (settled : Settled resolver depth ref merge state)
    {levels : Nat}
    (enough : depth ≤ levels) :
    outcome (document resolver levels ref merge) state =
      outcome (document resolver depth ref merge) state := by
  rw [← Nat.sub_add_cancel enough, document_add]
  exact settled _

/-! ## Chains of links -/

/-- A chain of `count` links leads away from a model. -/
def Climbs (state : Traversal) (ref : ModelRef) (count : Nat) : Prop :=
  ∃ chain : List ModelRef, chain.length = count ∧ (ref :: chain).IsChain state.Linked

namespace Climbs

variable
  {before after state : Traversal}
  {ref : ModelRef}
  {count : Nat}

/-- Chains stay while a traversal grows. -/
theorem of_grows
    (climbs : before.Climbs ref count)
    (grows : Grows before after) :
    after.Climbs ref count := by
  obtain ⟨chain, length_eq, isChain⟩ := climbs
  exact ⟨chain, length_eq, isChain.imp fun _ _ linked => linked.of_grows grows⟩

/-- A link lengthens a chain. -/
theorem of_linked
    {parentRef : ModelRef}
    (linked : state.Linked ref parentRef)
    (climbs : state.Climbs parentRef count) :
    state.Climbs ref (count + 1) := by
  obtain ⟨chain, length_eq, isChain⟩ := climbs
  exact ⟨parentRef :: chain, by rw [List.length_cons, length_eq], isChain.cons_cons linked⟩

/-- Without circles no chain is longer than there are ancestors. -/
theorem count_le
    (climbs : state.Climbs ref count)
    (sound : state.Sound)
    (acyclic : ¬state.Circular) :
    count ≤ (Entries.keys state.ancestors).length := by
  obtain ⟨chain, rfl, isChain⟩ := climbs
  have ways : (ref :: chain).Pairwise (TransGen state.Linked) :=
    List.isChain_iff_pairwise.mp (isChain.imp fun _ _ => TransGen.single)
  obtain ⟨fromRef, pairwise⟩ := List.pairwise_cons.mp ways
  have distinct : chain.Nodup := by
    refine pairwise.imp ?_
    rintro first _ way rfl
    exact acyclic ⟨first, way⟩
  have subset : chain ⊆ (Entries.keys state.ancestors).map ModelRef.ancestor := by
    intro other member
    obtain ⟨child, _, linked⟩ := TransGen.tail'_iff.mp (fromRef other member)
    have present := linked.has_parent sound
    obtain ⟨_, _, ancestor, _, rfl⟩ := linked
    exact List.mem_map_of_mem (has_ancestor_iff.mp present)
  have length_le := (distinct.subperm subset).length_le
  rwa [List.length_map] at length_le

end Climbs

/-! ## Reaching the limit -/

section Reaching

variable
  {resolver : ImportResolver}
  {depth : Nat}
  {ref : ModelRef}

/-- Inheriting does not depend on the limit if the documents of parents do not.  A parent whose
document does is the start of a chain, which remains while the other parents are asked for. -/
theorem Inheriting.settled_or_climbs
    {entries : Entries String (Option String)}
    {inherited : Sections}
    {before after : Traversal}
    {result : Except Failure Sections}
    (inheriting : Inheriting resolver
      (fun parentRef => document resolver depth parentRef none) ref entries inherited before
      result after)
    (sound : before.Sound)
    (present : before.Has ref)
    (declared : ∀ name path, (name, some path) ∈ entries →
      (before.model ref).subject.Declares name path)
    (settles : ∀ parentRef state, state.Sound → state.Has parentRef →
      Settled resolver depth parentRef none state ∨
        (outcome (document resolver depth parentRef none) state).2.Climbs parentRef depth) :
    (∀ limit, Inheriting resolver
      (fun parentRef => documentOr resolver limit depth parentRef none) ref entries inherited
      before result after) ∨ after.Climbs ref (depth + 1) := by
  induction inheriting with
  | done => exact .inl fun limit => .done
  | skipped more ih =>
      have rest := ih sound present fun name path member =>
        declared name path (List.mem_cons_of_mem _ member)
      exact rest.imp (fun settled limit => .skipped (settled limit)) id
  | refused refuses => exact .inl fun limit => .refused refuses
  | @broken name path rest inherited before middle after parentRef failure asks breaks =>
      have asking := Passage.of_parent present asks
      have parentPresent := sound.has_of_parent present asks
      rcases settles parentRef middle (asking.sound sound) parentPresent with settled | climbs
      · refine .inl fun limit => .broken asks ?_
        rw [← breaks]
        exact settled limit
      · obtain ⟨questions, passage, _⟩ := (asking.sound sound).passage_document resolver depth
          none parentPresent
        rw [breaks] at climbs passage
        have linked := (Linked.of_parent present asks).of_grows passage.grows
        exact .inr (climbs.of_linked linked)
  | @merged name path rest inherited before middle late after parentRef parentDocument
      result asks documents more ih =>
      have asking := Passage.of_parent present asks
      have parentPresent := sound.has_of_parent present asks
      obtain ⟨questions, passage, _⟩ := (asking.sound sound).passage_document resolver depth
        none parentPresent
      rw [documents] at passage
      have soFar := asking.trans passage
      have grown := soFar.grows
      have restDeclared : ∀ other otherPath, (other, some otherPath) ∈ rest →
          (late.model ref).subject.Declares other otherPath := by
        intro other otherPath member
        rw [grown.subject_eq present]
        exact declared other otherPath (List.mem_cons_of_mem _ member)
      rcases settles parentRef middle (asking.sound sound) parentPresent with settled | climbs
      · have rest := ih (soFar.sound sound) (grown.has present) restDeclared
        refine rest.imp (fun restSettled limit => .merged asks ?_ (restSettled limit)) id
        rw [← documents]
        exact settled limit
      · obtain ⟨_, restPassage, _⟩ := more.passage (soFar.sound sound) (grown.has present)
          restDeclared fun parentRef state stateSound statePresent =>
            stateSound.passage_document resolver depth none statePresent
        rw [documents] at climbs
        have linked := (Linked.of_parent present asks).of_grows
          (passage.grows.trans restPassage.grows)
        exact .inr ((climbs.of_grows restPassage.grows).of_linked linked)

/-- A document is settled below a limit, or a chain of links reaches the limit. -/
theorem Sound.settled_or_climbs
    {before : Traversal}
    (merge : Option Bool)
    (sound : before.Sound)
    (present : before.Has ref) :
    Settled resolver depth ref merge before ∨
      (outcome (document resolver depth ref merge) before).2.Climbs ref depth := by
  induction depth generalizing before ref merge with
  | zero => exact .inr ⟨[], rfl, List.isChain_singleton ref⟩
  | succ depth ih =>
      have documenting := documenting_document resolver ref merge depth before
      unfold Settled
      generalize outcome (document resolver (depth + 1) ref merge) before = ended
        at documenting ⊢
      obtain ⟨result, after⟩ := ended
      have settled_of
          (all : ∀ limit, Documenting resolver
            (fun parentRef => documentOr resolver limit depth parentRef none) ref merge before
            result after) :
          ∀ limit, outcome (documentOr resolver limit (depth + 1) ref merge) before =
            (result, after) :=
        fun limit => (all limit).outcome_eq
      cases documenting with
      | underived fails => exact .inl (settled_of fun limit => .underived fails)
      | alone derives unmerged => exact .inl (settled_of fun limit => .alone derives unmerged)
      | unparented derives merging fails =>
          exact .inl (settled_of fun limit => .unparented derives merging fails)
      | @inherited own middle ready after parents result derives merging lists inheriting =>
          obtain ⟨passed, same, parents_eq⟩ := sound.lists_parents present derives lists
          have inherits := inheriting.settled_or_climbs ((passed resolver).sound sound)
            ((same.has_iff ref).mpr present)
            (by
              intro name path member
              rw [same.subject_eq present]
              exact (Subject.declares_iff parents_eq name path).mpr member)
            (fun parentRef state stateSound statePresent => ih none stateSound statePresent)
          exact inherits.imp
            (fun settled => settled_of fun limit =>
              .inherited derives merging lists (settled limit)) id

end Reaching

end Traversal
end ContractDoc
