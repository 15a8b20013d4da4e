import ContractDoc.Proofs.Traversal.Answered
import ContractDoc.Proofs.Traversal.Call

/-!
# Flattening without sharing

The document of a contract with all that it inherits has a plain definition, which
parses every file anew, resolves every import anew, and knows neither caches nor
a registry.  A traversal that shares its models gives the same document, after any
history of calls, if the answers of its resolver depend on directories only and name
one source for each canonical path.
-/

namespace ContractDoc

namespace Document

/-- The sections that are inherited from parents in order.  The members of a later parent
replace those of the same name (`Sections.get?_overlay`). -/
def inheritedSections (parents : List Document) : Sections :=
  parents.foldl (fun inherited parent => inherited.overlay parent.sections) Sections.empty

end Document

/-- The document of a parent, whose import is resolved first. -/
def Subject.parentDocument
    (subject : Subject)
    (resolver : ImportResolver)
    (documentOf : Subject → Except Failure Document)
    (parent : String × String) : Except Failure Document := do
  let resolved ← (resolver parent.2 subject.filePath).result
  documentOf (.ofParent parent.1 resolved)

/-- The document of a contract with all that it inherits.  Parents are followed at
most `depth` levels up, and nothing is remembered on the way. -/
def Subject.flatten (resolver : ImportResolver) :
    (depth : Nat) → Subject → Except Failure Document
  | 0, _ => .error .tooDeep
  | depth + 1, subject => do
      let own ← subject.plainDocument
      let parents ← (importedParents own.parents).mapM
        (subject.parentDocument resolver (flatten resolver depth))
      return { own with sections := (Document.inheritedSections parents).overlay own.sections }

/-- A contract has a flat document exactly if it has a document of its own and all its
declared parents have flat ones, in whatever order they are declared. -/
theorem Subject.exists_flatten_succ_iff
    {resolver : ImportResolver}
    {depth : Nat}
    {subject : Subject} :
    (∃ document, subject.flatten resolver (depth + 1) = .ok document) ↔
      (∃ own, subject.plainDocument = .ok own) ∧
        ∀ name importPath, subject.Declares name importPath →
          ∃ resolved, (resolver importPath subject.filePath).result = .ok resolved ∧
            ∃ document, (ofParent name resolved).flatten resolver depth = .ok document := by
  have parent_iff : ∀ own, subject.plainDocument = .ok own →
      ((∃ documents, (importedParents own.parents).mapM
          (subject.parentDocument resolver (flatten resolver depth)) = .ok documents) ↔
        ∀ name importPath, subject.Declares name importPath →
          ∃ resolved, (resolver importPath subject.filePath).result = .ok resolved ∧
            ∃ document, (ofParent name resolved).flatten resolver depth = .ok document) := by
    intro own own_eq
    have listed := plainParents_of_plainDocument own_eq
    simp only [exists_mapM_eq_ok_iff, Prod.forall, mem_importedParents, parentDocument,
      bind_eq_ok, declares_iff listed]
    simp only [@exists_comm Document, exists_and_left]
  rw [flatten]
  constructor
  · rintro ⟨document, flat⟩
    obtain ⟨own, own_eq, flat⟩ := bind_eq_ok.mp flat
    obtain ⟨documents, documents_eq, _⟩ := bind_eq_ok.mp flat
    exact ⟨⟨own, own_eq⟩, (parent_iff own own_eq).mp ⟨documents, documents_eq⟩⟩
  · rintro ⟨⟨own, own_eq⟩, parents⟩
    obtain ⟨documents, documents_eq⟩ := (parent_iff own own_eq).mpr parents
    exact ⟨_, bind_eq_ok.mpr ⟨own, own_eq, bind_eq_ok.mpr ⟨documents, documents_eq, rfl⟩⟩⟩

namespace Traversal

/-! ## The traversal flattens -/

/-- Inheriting from parents gives the sections that their flat documents have, if the documents
of all ancestors are flat.  A model may have been built for another child, but its contract is
the same. -/
theorem Inheriting.flattens
    {resolver : ImportResolver}
    {documentOf : ModelRef → Step Document}
    {ref : ModelRef}
    {entries : Entries String (Option String)}
    {inherited : Sections}
    {before after : Traversal}
    {result : Except Failure Sections}
    (inheriting : Inheriting resolver documentOf ref entries inherited before result after)
    (flatOf : Subject → Except Failure Document)
    (canonical : resolver.Canonical)
    (sound : before.Sound)
    (answered : Answered resolver before)
    (present : before.Has ref)
    (passes : ∀ parentRef state, state.Sound → state.Has parentRef →
      ∃ questions, Passage resolver state questions (outcome (documentOf parentRef) state).2)
    (flattens : ∀ ancestor state, state.Sound → Answered resolver state →
      state.Has (.ancestor ancestor) → ∀ document late,
        outcome (documentOf (.ancestor ancestor)) state = (.ok document, late) →
          flatOf (state.model (.ancestor ancestor)).subject = .ok document)
    {sections : Sections}
    (succeeds : result = .ok sections) :
    ∃ documents,
      (importedParents entries).mapM
        ((before.model ref).subject.parentDocument resolver flatOf) = .ok documents ∧
      sections = documents.foldl
        (fun inherited parent => inherited.overlay parent.sections) inherited := by
  induction inheriting with
  | done => exact ⟨[], rfl, (Except.ok.inj succeeds).symm⟩
  | skipped more ih => exact ih sound answered present succeeds
  | refused refuses => cases succeeds
  | broken asks breaks => cases succeeds
  | @merged name path rest inherited before middle late after parentRef parentDocument
      result asks documents more ih =>
      have asking := Passage.of_parent present asks
      have middleSound := asking.sound sound
      have middleAnswered := answered.passage asking
      have stays := asking.grows.has present
      obtain ⟨ancestor, rfl, linked⟩ := linked_of_parent present asks
      have parentPresent := sound.has_of_parent present asks
      obtain ⟨questions, documenting⟩ := passes (.ancestor ancestor) middle middleSound
        parentPresent
      rw [documents] at documenting
      have soFar := asking.trans documenting
      obtain ⟨others, rest_eq, sections_eq⟩ := ih (soFar.sound sound)
        (answered.passage soFar) (soFar.grows.has present) succeeds
      obtain ⟨resolved, answer, subject_eq⟩ :=
        middleAnswered.subject_of_linked canonical middleSound stays linked
      have flat := flattens ancestor middle middleSound middleAnswered parentPresent
        parentDocument late documents
      rw [asking.grows.subject_eq present] at answer
      rw [soFar.grows.subject_eq present] at rest_eq
      refine ⟨parentDocument :: others, ?_, sections_eq⟩
      have first : (before.model ref).subject.parentDocument resolver flatOf (name, path) =
          .ok parentDocument := by
        unfold Subject.parentDocument
        rw [answer]
        rw [subject_eq] at flat
        exact flat
      change ((name, path) :: importedParents rest).mapM _ = _
      rw [List.mapM_cons, first, bind_eq_ok]
      refine ⟨parentDocument, rfl, ?_⟩
      rw [rest_eq]
      rfl

/-- A document that is made with the members of parents is the flat one, however many
more levels of parents are followed. -/
theorem Sound.flatten_of_document
    {resolver : ImportResolver}
    (canonical : resolver.Canonical)
    {depth : Nat}
    {before after : Traversal}
    {ref : ModelRef}
    {merge : Option Bool}
    {document : Document}
    (sound : before.Sound)
    (answered : Answered resolver before)
    (present : before.Has ref)
    (merging : (merge <|> (before.model ref).mergesParents).getD false = true)
    (returns : outcome (Traversal.document resolver depth ref merge) before =
      (.ok document, after))
    {levels : Nat}
    (enough : depth ≤ levels) :
    (before.model ref).subject.flatten resolver levels = .ok document := by
  induction depth generalizing before after ref merge document levels with
  | zero => cases returns
  | succ depth ih =>
      obtain ⟨levels, rfl⟩ : ∃ fewer, levels = fewer + 1 :=
        Nat.exists_eq_add_one.mpr (Nat.lt_of_lt_of_le (Nat.succ_pos depth) enough)
      obtain ⟨own, ready, sections, readied, own_eq, inheriting, rfl⟩ :=
        sound.inheriting_of_document present merging returns
      have grown := readied.grows
      obtain ⟨documents, documents_eq, rfl⟩ := inheriting.flattens
        (Subject.flatten resolver levels) canonical (readied.sound sound)
        (answered.passage readied) (grown.has present)
        (by
          intro parentRef state stateSound statePresent
          obtain ⟨questions, passage, _⟩ :=
            stateSound.passage_document resolver depth none statePresent
          exact ⟨questions, passage⟩)
        (by
          intro ancestor state stateSound stateAnswered statePresent document late made
          exact ih stateSound stateAnswered statePresent
            (stateSound.merges_ancestor statePresent) made (Nat.le_of_succ_le_succ enough))
        rfl
      rw [grown.subject_eq present] at documents_eq
      rw [Subject.flatten, own_eq, bind_eq_ok]
      refine ⟨own, rfl, ?_⟩
      rw [bind_eq_ok]
      exact ⟨documents, documents_eq, rfl⟩

/-- Without the members of parents the document is the plain one. -/
theorem Sound.document_alone
    {state : Traversal}
    {ref : ModelRef}
    (sound : state.Sound)
    (present : state.Has ref)
    (resolver : ImportResolver)
    (levels : Nat) :
    (outcome (document resolver (levels + 1) ref (some false)) state).1 =
      (state.model ref).subject.plainDocument := by
  have documenting := documenting_document resolver ref (some false) levels state
  generalize outcome (document resolver (levels + 1) ref (some false)) state = ended
    at documenting
  obtain ⟨result, after⟩ := ended
  cases documenting with
  | underived fails => exact sound.derive_result present Subject.yields_document fails
  | alone derives unmerged =>
      exact sound.derive_result present Subject.yields_document derives
  | unparented derives merging fails => cases merging
  | inherited derives merging lists inheriting => cases merging

/-- After every history of calls, a document that the root returns with the members
of its parents is the flat one, however many more levels of parents are followed.
What it says about the contract itself, its file and its parents is what the document
without inherited members says, which is the same after all histories. -/
theorem document_eq_flatten_after_history
    (resolver : ImportResolver)
    (canonical : resolver.Canonical)
    (subject : Subject)
    (mergesParents : Option Bool)
    (calls : List Call)
    (history : History (start subject mergesParents) (calls.map (Turn.mk resolver)))
    (depth : Nat)
    (document : Document)
    (after : Traversal)
    (returns : outcome (Traversal.document resolver depth .root (some true))
      (afterTurns (start subject mergesParents) (calls.map (Turn.mk resolver))) =
        (.ok document, after)) :
    (∀ levels, depth ≤ levels → subject.flatten resolver levels = .ok document) ∧
      ∃ own, document = { own with sections := document.sections } ∧
        ∀ turns, History (start subject mergesParents) turns → ∀ levels,
          (outcome (Traversal.document resolver (levels + 1) .root (some false))
            (afterTurns (start subject mergesParents) turns)).1 = .ok own := by
  have startSound : (start subject mergesParents).Sound := .start subject mergesParents
  obtain ⟨sound, grows⟩ := history.sound_and_grows startSound
  obtain ⟨questions, passage, _⟩ := history.passage startSound
  have answered := (Answered.start subject mergesParents).passage passage
  have subject_eq := grows.subject_eq (has_root _)
  have flattens : ∀ levels, depth ≤ levels → subject.flatten resolver levels = .ok document := by
    intro levels enough
    have flat := sound.flatten_of_document canonical answered (has_root _) rfl returns enough
    rwa [subject_eq] at flat
  refine ⟨flattens, ?_⟩
  have flat := flattens (depth + 1) (Nat.le_succ depth)
  rw [Subject.flatten] at flat
  obtain ⟨own, own_eq, flat⟩ := bind_eq_ok.mp flat
  obtain ⟨parents, _, flat⟩ := bind_eq_ok.mp flat
  refine ⟨own, ?_, ?_⟩
  · rw [← Except.ok.inj flat]
  · intro turns otherHistory levels
    obtain ⟨otherSound, otherGrows⟩ := otherHistory.sound_and_grows startSound
    rw [otherSound.document_alone (has_root _), otherGrows.subject_eq (has_root _)]
    exact own_eq

/-- The sources of a contract and of a child that replaces an event and a constant function of
it. -/
def layeredSources : Entries String Import.StoredSource := [
  ("a", ⟨"pragma solidity 1;contract A \x7b\n/// of A\nevent E();\n/// of A\nevent G();\n" ++
    "/// of A\nfunction f() public \x7b\x7d\n/// of A\nfunction p() public view \x7b\x7d\n\x7d",
    none⟩),
  ("b", ⟨"pragma solidity 1;import 'a' as A;contract B is A \x7b\n/// of B\nevent E(uint x);\n" ++
    "/// of B\nfunction g() public \x7b\x7d\n/// of B\nfunction p() public view \x7b\x7d\n\x7d",
    none⟩)]

/-- A contract that inherits from one file under two names, and replaces a function. -/
def layeredBottom : Subject :=
  ⟨"pragma solidity 1;import 'b' as B;import 'a' as X;contract R is B, X \x7b\n" ++
    "/// of R\nevent F();\n/// of R\nfunction f() public \x7b\x7d\n" ++
    "/// of R\nfunction q() public view \x7b\x7d\n\x7d",
    none, none, false⟩

/-- A history in which a document fails at its limit before another one is made. -/
def layeredCalls : List Call :=
  [.document 2 .root none, .document 2 .root (some true), .own .root .parents]

/-- The names of members in order, with the comments on them. -/
def commented (members : Entries String TaggedBlock) : List (String × String) :=
  members.map fun (name, tagged) => (name, tagged.block.comment)

/-- The file that is reached under two names is flattened for both: its members replace those of
the child that is declared before it, and are replaced by own ones. -/
theorem layered_document_eq_flatten :
    ∃ document,
      layeredBottom.flatten (Import.flat layeredSources) 9 = .ok document ∧
        commented document.sections.events = [("E", "of A"), ("G", "of A"), ("F", "of R")] ∧
        commented document.sections.functions = [("f", "of R"), ("g", "of B")] ∧
        commented document.sections.constantFunctions = [("p", "of A"), ("q", "of R")] := by
  have ran :
      let turns := layeredCalls.map (Turn.mk (Import.flat layeredSources))
      History (start layeredBottom none) turns ∧
        (outcome (Traversal.document (Import.flat layeredSources) 4 .root (some true))
          (afterTurns (start layeredBottom none) turns)).1.toOption.map
            (fun document => (commented document.sections.events,
              commented document.sections.functions,
              commented document.sections.constantFunctions)) =
          some ([("E", "of A"), ("G", "of A"), ("F", "of R")],
            [("f", "of R"), ("g", "of B")], [("p", "of A"), ("q", "of R")]) := by
    decide +kernel
  obtain ⟨document, returned, members⟩ := Option.map_eq_some_iff.mp ran.2
  rw [Prod.mk.injEq, Prod.mk.injEq] at members
  have canonical : (Import.flat layeredSources).Canonical :=
    Import.canonical_flat (by decide +kernel)
  rcases outcome_eq : outcome
    (Traversal.document (Import.flat layeredSources) 4 .root (some true))
    (afterTurns (start layeredBottom none)
      (layeredCalls.map (Turn.mk (Import.flat layeredSources)))) with ⟨result, after⟩
  rw [outcome_eq] at returned
  cases result with
  | error failure => cases returned
  | ok found =>
      obtain rfl := Option.some.inj returned
      have flat := document_eq_flatten_after_history _ canonical layeredBottom none
        layeredCalls ran.1 4 found after outcome_eq
      exact ⟨found, flat.1 9 (by decide), members⟩

end Traversal
end ContractDoc
