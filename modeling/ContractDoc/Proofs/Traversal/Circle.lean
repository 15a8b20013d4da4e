import ContractDoc.Proofs.Traversal.Call
import ContractDoc.Proofs.Traversal.Confinement

/-!
# Circles after a history of calls

The lineage of an ancestor is the one of the child for which it was built.  Asked in
a suitable order, ancestors can therefore be linked in a circle, which no document on
a fresh root does.  The links get circular exactly if a question closes a circle, and
without circles every document ends.
-/

namespace ContractDoc
namespace Traversal

open Relation

/-! ## Documents on a circle -/

/-- One model has been linked to another one as a parent that it declares. -/
def DeclaredLink (state : Traversal) (child parent : ModelRef) : Prop :=
  state.Has child ∧ ∃ key ancestor,
    (state.model child).subject.Declares key.name key.importPath ∧
      Entries.get? key (state.model child).parents = some ancestor ∧
        parent = .ancestor ancestor

theorem DeclaredLink.of_grows
    {before after : Traversal}
    {child parent : ModelRef}
    (link : before.DeclaredLink child parent)
    (grows : Grows before after) :
    after.DeclaredLink child parent := by
  obtain ⟨present, key, ancestor, declares, known, rfl⟩ := link
  refine ⟨grows.has present, key, ancestor, ?_, grows.get?_parents present known, rfl⟩
  rw [grows.subject_eq present]
  exact declares

/-- Questions for declared parents lead to links to declared parents. -/
theorem Passage.declaredLink
    {resolver : ImportResolver}
    {start state : Traversal}
    {questions : List Question}
    {child parent : ModelRef}
    (passage : Passage resolver start questions state)
    (declared : ∀ question ∈ questions, question.Declared)
    (links : ∀ child parent, start.Linked child parent → start.DeclaredLink child parent)
    (linked : state.Linked child parent) :
    state.DeclaredLink child parent := by
  induction passage with
  | start => exact links child parent linked
  | derive passage present yields ih =>
      have early := ih declared (((sameModels_derive present _).linked_iff _ _).mp linked)
      exact early.of_grows (grows_derive present _)
  | ask question passage present ih =>
      have ihEarly := ih fun other member => declared other (List.mem_append_left _ member)
      have grows := grows_parent resolver question.importPath question.name present
      have asking := asking_parent resolver question.ref question.importPath question.name
        question.state
      rcases asking.kept_or_attached present with ⟨same, _⟩ | ⟨resolved, _, attached⟩
      · exact (ihEarly ((same.linked_iff _ _).mp linked)).of_grows grows
      · rcases (attached.linked_iff present _ _).mp linked with old | ⟨rfl, rfl⟩
        · exact (ihEarly old).of_grows grows
        · refine ⟨grows.has present, ⟨question.importPath, question.name⟩, _, ?_, ?_, rfl⟩
          · change ((outcome _ question.state).2.model question.ref).subject.Declares _ _
            rw [grows.subject_eq present]
            exact declared question (List.mem_append_right _ List.mem_cons_self)
          · change Entries.get? _ ((outcome _ question.state).2.model question.ref).parents = _
            rw [attached.parents_eq present, if_pos rfl,
              ← Entries.insert_of_get?_eq_none _ attached.unknown]
            exact Entries.get?_insert_self ..

/-- If inheriting succeeds, the document of each linked parent has been made. -/
theorem Inheriting.document_of_linked
    {resolver : ImportResolver}
    {documentOf : ModelRef → Step Document}
    {ref : ModelRef}
    {entries : Entries String (Option String)}
    {inherited sections : Sections}
    {before after : Traversal}
    {result : Except Failure Sections}
    (inheriting : Inheriting resolver documentOf ref entries inherited before result after)
    (sound : before.Sound)
    (present : before.Has ref)
    (passes : ∀ parentRef state, state.Sound → state.Has parentRef →
      ∃ questions, Passage resolver state questions (outcome (documentOf parentRef) state).2)
    (succeeds : result = .ok sections)
    {name path : String}
    {ancestor : AncestorKey}
    (member : (name, some path) ∈ entries)
    (known : Entries.get? ⟨path, name⟩ (before.model ref).parents = some ancestor) :
    ∃ state document late, state.Sound ∧ Grows before state ∧
      outcome (documentOf (.ancestor ancestor)) state = (.ok document, late) := by
  induction inheriting with
  | done => cases member
  | skipped more ih =>
      rcases List.mem_cons.mp member with equal | member
      · cases equal
      · exact ih sound present succeeds member known
  | refused refuses => cases succeeds
  | broken asks breaks => cases succeeds
  | @merged other otherPath rest inherited before middle late after parentRef parentDocument
      result asks documents more ih =>
      have asking := Passage.of_parent present asks
      rcases List.mem_cons.mp member with equal | member
      · obtain ⟨rfl, path_eq⟩ := Prod.mk.inj equal
        obtain rfl := Option.some.inj path_eq
        obtain ⟨found, rfl, linked⟩ := linked_of_parent present asks
        rw [asking.grows.get?_parents present known] at linked
        obtain rfl := Option.some.inj linked
        exact ⟨middle, parentDocument, late, asking.sound sound, asking.grows, documents⟩
      · obtain ⟨questions, passage⟩ := passes parentRef middle (asking.sound sound)
          (sound.has_of_parent present asks)
        rw [documents] at passage
        have soFar := asking.trans passage
        obtain ⟨state, document, final, stateSound, grows, made⟩ := ih (soFar.sound sound)
          (soFar.grows.has present) succeeds member (soFar.grows.get?_parents present known)
        exact ⟨state, document, final, stateSound, soFar.grows.trans grows, made⟩

/-- A model on a circle of links to declared parents returns no document.  Otherwise the next
model on the circle would return one as well, one level below. -/
theorem Sound.document_ne_ok_of_circle
    {resolver : ImportResolver}
    {depth : Nat}
    {before after : Traversal}
    {ref : ModelRef}
    {merge : Option Bool}
    {document : Document}
    (sound : before.Sound)
    (merging : (merge <|> (before.model ref).mergesParents).getD false = true)
    (circle : TransGen before.DeclaredLink ref ref) :
    outcome (Traversal.document resolver depth ref merge) before ≠ (.ok document, after) := by
  induction depth generalizing before after ref merge document with
  | zero => exact nofun
  | succ depth ih =>
      intro returns
      obtain ⟨next, link, back⟩ := TransGen.head'_iff.mp circle
      have further : TransGen before.DeclaredLink next next := TransGen.tail' back link
      obtain ⟨present, key, ancestor, declares, known, rfl⟩ := link
      obtain ⟨own, ready, sections, readied, own_eq, inheriting, _⟩ :=
        sound.inheriting_of_document present merging returns
      have listed := Subject.plainParents_of_plainDocument own_eq
      obtain ⟨state, parentDocument, late, stateSound, grows, made⟩ :=
        inheriting.document_of_linked (readied.sound sound) (readied.grows.has present)
          (fun parentRef state stateSound statePresent =>
            (stateSound.passage_document resolver depth none statePresent).imp
              fun _ passage => passage.1)
          rfl ((Subject.declares_iff listed _ _).mp declares)
          (readied.grows.get?_parents present known)
      have grown := readied.grows.trans grows
      have parentPresent := grown.has (sound.leads ref present key ancestor known).present
      exact ih stateSound (stateSound.merges_ancestor parentPresent)
        (TransGen.mono (fun _ _ link => link.of_grows grown) _ _ further) made

/-! ## The links after a history -/

/-- After every history of calls that ask for declared parents only, the links are
circular exactly if one of the questions asked on the way has closed a circle.  A model
on a circle returns no document with the members of its parents.  Conversely, making
a document that does not end leaves a circle, if the canonical paths of all answers are
among given ones. -/
theorem circular_iff_circle_closed_after_history
    (resolver : ImportResolver)
    (subject : Subject)
    (mergesParents : Option Bool)
    (calls : List Call)
    (history : History (start subject mergesParents) (calls.map (Turn.mk resolver)))
    (declared : AsksDeclared (start subject mergesParents) (calls.map (Turn.mk resolver))) :
    let state := afterTurns (start subject mergesParents) (calls.map (Turn.mk resolver))
    (∃ questions, Passage resolver (start subject mergesParents) questions state ∧
      ∀ question ∈ questions, question.Declared) ∧
    (∀ questions, Passage resolver (start subject mergesParents) questions state →
      (state.Circular ↔ ∃ question ∈ questions, question.ClosesCircle resolver)) ∧
    (∀ ref, TransGen state.Linked ref ref → ∀ merge,
      (merge <|> (state.model ref).mergesParents).getD false = true → ∀ depth,
        ∃ failure, (outcome (document resolver depth ref merge) state).1 = .error failure) ∧
    ∀ paths, resolver.Within paths → ∀ ref merge, state.Has ref →
      ¬Ends resolver ref merge state →
        ∃ depth, (outcome (document resolver depth ref merge) state).2.Circular := by
  intro state
  have startSound : (start subject mergesParents).Sound := .start subject mergesParents
  obtain ⟨questions, passage, allDeclared⟩ := history.passage startSound
  have questionsDeclared := allDeclared declared
  refine ⟨⟨questions, passage, questionsDeclared⟩, ?_, ?_, ?_⟩
  · intro others otherPassage
    rw [otherPassage.circular_iff, or_iff_right (not_circular_start subject mergesParents)]
  · intro ref circle merge merging depth
    have declaredCircle : TransGen state.DeclaredLink ref ref := by
      refine TransGen.mono (fun child parent linked => ?_) _ _ circle
      refine passage.declaredLink questionsDeclared (fun child parent early => ?_) linked
      exact absurd early (not_linked_start subject mergesParents child parent)
    rcases returns : outcome (document resolver depth ref merge) state with ⟨result, after⟩
    cases result with
    | error failure => exact ⟨failure, rfl⟩
    | ok document =>
        exact absurd returns ((passage.sound startSound).document_ne_ok_of_circle merging
          declaredCircle)
  · intro paths within ref merge present unending
    by_contra acyclic
    exact unending (passage.ends_of_not_circular questionsDeclared within present
      (not_exists.mp acyclic))

/-- The sources of two contracts that inherit from each other. -/
def crossedSources : Entries String Import.StoredSource := [
  ("a", ⟨"pragma solidity 1;import 'b' as B;contract A is B {}", none⟩),
  ("b", ⟨"pragma solidity 1;import 'a' as A;contract B is A {}", none⟩)]

/-- A contract that inherits from both. -/
def crossedBottom : Subject :=
  ⟨"pragma solidity 1;import 'a' as A;import 'b' as B;contract R is A, B {}",
    none, none, false⟩

/-- Calls that build both parents for the root before they are linked to each other. -/
def crossedCalls : List Call :=
  [.parent .root "a" "A", .parent .root "b" "B",
    .parent (.ancestor ⟨"/virtual/a", "A"⟩) "b" "B",
    .parent (.ancestor ⟨"/virtual/b", "B"⟩) "a" "A"]

/-- The two parents are linked in a circle, which a question has closed. -/
theorem crossed_parents_circular :
    let state := afterTurns (start crossedBottom none)
      (crossedCalls.map (Turn.mk (Import.flat crossedSources)))
    state.Circular ∧
      ∃ questions, Passage (Import.flat crossedSources) (start crossedBottom none) questions
          state ∧
        ∃ question ∈ questions, question.ClosesCircle (Import.flat crossedSources) := by
  intro state
  let refA : ModelRef := .ancestor ⟨"/virtual/a", "A"⟩
  let refB : ModelRef := .ancestor ⟨"/virtual/b", "B"⟩
  have ran :
      let turns := crossedCalls.map (Turn.mk (Import.flat crossedSources))
      let state := afterTurns (start crossedBottom none) turns
      History (start crossedBottom none) turns ∧ AsksDeclared (start crossedBottom none) turns ∧
        state.Has refA ∧ state.Has refB ∧
        Entries.get? ⟨"b", "B"⟩ (state.model refA).parents = some ⟨"/virtual/b", "B"⟩ ∧
        Entries.get? ⟨"a", "A"⟩ (state.model refB).parents = some ⟨"/virtual/a", "A"⟩ := by
    decide +kernel
  obtain ⟨history, declared, presentA, presentB, fromA, fromB⟩ := ran
  have linkedA : state.Linked refA refB := ⟨presentA, _, _, fromA, rfl⟩
  have linkedB : state.Linked refB refA := ⟨presentB, _, _, fromB, rfl⟩
  have circular : state.Circular := ⟨refA, .tail (.single linkedA) linkedB⟩
  obtain ⟨⟨questions, passage, _⟩, circular_iff, _⟩ := circular_iff_circle_closed_after_history
    (Import.flat crossedSources) crossedBottom none crossedCalls history declared
  exact ⟨circular, questions, passage, (circular_iff questions passage).mp circular⟩

end Traversal
end ContractDoc
