import ContractDoc.Proofs.Traversal.Documenting

/-!
# Passages of a traversal

Whatever is asked of a traversal, it changes by derivations and by questions for
parents only.  A passage is a sequence of such changes, with its questions on
record.  Making a document is a passage whose questions are all for declared
parents.
-/

namespace ContractDoc

namespace Traversal

/-- A model is asked for a parent in a state of the traversal. -/
structure Question where
  state : Traversal
  ref : ModelRef
  importPath : String
  name : String

namespace Question

/-- The question is put to a model that is there. -/
def Present (question : Question) : Prop :=
  question.state.Has question.ref

/-- The question is for a parent that the contract declares. -/
def Declared (question : Question) : Prop :=
  (question.state.model question.ref).subject.Declares question.name question.importPath

/-- The state that the question leaves. -/
def after (question : Question) (resolver : ImportResolver) : Traversal :=
  (outcome (parent resolver question.ref question.importPath question.name)
    question.state).2

end Question

/-- A passage from one state to another with all questions asked on the way. -/
inductive Passage
    (resolver : ImportResolver)
    (start : Traversal) : List Question → Traversal → Prop
  | start : Passage resolver start [] start
  | derive {questions : List Question} {state : Traversal} {ref : ModelRef} {α : Type}
      {value : Subject → Derive α} {plain : Subject → Except Failure α}
      (passage : Passage resolver start questions state)
      (present : state.Has ref)
      (yields : ∀ subject : Subject, subject.Yields (value subject) (plain subject)) :
      Passage resolver start questions (outcome (Traversal.derive ref value) state).2
  | ask {questions : List Question} (question : Question)
      (passage : Passage resolver start questions question.state)
      (present : question.Present) :
      Passage resolver start (questions ++ [question]) (question.after resolver)

namespace Passage

variable
  {resolver : ImportResolver}
  {start middle state : Traversal}
  {questions moreQuestions : List Question}

/-- A passage may be continued by another one. -/
theorem trans
    (first : Passage resolver start questions middle)
    (second : Passage resolver middle moreQuestions state) :
    Passage resolver start (questions ++ moreQuestions) state := by
  induction second with
  | start => simpa using first
  | derive passage present yields ih => exact ih.derive present yields
  | ask question passage present ih =>
      rw [← List.append_assoc]
      exact ih.ask question present

/-- A single derivation. -/
theorem of_derive
    {α : Type}
    {ref : ModelRef}
    {value : Subject → Derive α}
    {plain : Subject → Except Failure α}
    {result : Except Failure α}
    (present : start.Has ref)
    (yields : ∀ subject : Subject, subject.Yields (value subject) (plain subject))
    (derives : outcome (Traversal.derive ref value) start = (result, state)) :
    Passage resolver start [] state := by
  have passage : Passage resolver start [] (outcome (Traversal.derive ref value) start).2 :=
    Passage.start.derive present yields
  rwa [derives] at passage

/-- A single question. -/
theorem of_parent
    {ref : ModelRef}
    {importPath name : String}
    {result : Except Failure ModelRef}
    (present : start.Has ref)
    (asks : outcome (parent resolver ref importPath name) start = (result, state)) :
    Passage resolver start [⟨start, ref, importPath, name⟩] state := by
  have passage : Passage resolver start [⟨start, ref, importPath, name⟩]
      (outcome (parent resolver ref importPath name) start).2 :=
    Passage.start.ask ⟨start, ref, importPath, name⟩ present
  rwa [asks] at passage

/-- A traversal grows along a passage. -/
theorem grows (passage : Passage resolver start questions state) : Grows start state := by
  induction passage with
  | start => exact .refl start
  | derive passage present yields ih => exact ih.trans (grows_derive present _)
  | ask question passage present ih => exact ih.trans (grows_parent resolver _ _ present)

/-- A traversal stays sound along a passage. -/
theorem sound
    (passage : Passage resolver start questions state)
    (startSound : start.Sound) :
    state.Sound := by
  induction passage with
  | start => exact startSound
  | derive passage present yields ih => exact ih.derive present yields
  | ask question passage present ih => exact ih.parent present resolver _ _

end Passage

/-- In a sound traversal a derivation gives the plain value. -/
theorem Sound.derive_result
    {α : Type}
    {before after : Traversal}
    {ref : ModelRef}
    {value : Subject → Derive α}
    {plain : Subject → Except Failure α}
    {result : Except Failure α}
    (sound : before.Sound)
    (present : before.Has ref)
    (yields : ∀ subject : Subject, subject.Yields (value subject) (plain subject))
    (derives : outcome (Traversal.derive ref value) before = (result, after)) :
    result = plain (before.model ref).subject := by
  rw [outcome_derive] at derives
  rw [← (Prod.mk.inj derives).1]
  exact (yields _ _ (sound.truthful ref present)).1

/-- Once the own document is there, the parents are listed as the contract declares
them, and all models are as they were. -/
theorem Sound.lists_parents
    {before middle ready : Traversal}
    {ref : ModelRef}
    {own : Document}
    {parents : Entries String (Option String)}
    (sound : before.Sound)
    (present : before.Has ref)
    (derives : outcome (Traversal.derive ref Subject.document) before = (.ok own, middle))
    (lists : outcome (Traversal.derive ref Subject.parents) middle = (.ok parents, ready)) :
    (∀ resolver, Passage resolver before [] ready) ∧ SameModels before ready ∧
      (before.model ref).subject.plainParents = .ok parents := by
  have same := sameModels_derive present Subject.document
  have middleSound := sound.derive present Subject.yields_document
  rw [derives] at same middleSound
  have stays := (same.has_iff ref).mpr present
  have listed := sameModels_derive stays Subject.parents
  rw [lists] at listed
  refine ⟨?_, same.trans listed, ?_⟩
  · intro resolver
    exact (Passage.of_derive present Subject.yields_document derives).trans
      (Passage.of_derive stays Subject.yields_parents lists)
  · rw [← same.subject_eq present]
    exact (middleSound.derive_result stays Subject.yields_parents lists).symm

/-- What making a document does to a sound traversal.  All models stay as they are, and
no document with the members of parents is returned; or the contract inherits from the
parents that it declares. -/
theorem Documenting.kept_or_inherited
    {resolver : ImportResolver}
    {documentOf : ModelRef → Step Document}
    {ref : ModelRef}
    {merge : Option Bool}
    {before after : Traversal}
    {result : Except Failure Document}
    (documenting : Documenting resolver documentOf ref merge before result after)
    (sound : before.Sound)
    (present : before.Has ref) :
    (Passage resolver before [] after ∧ SameModels before after ∧
      ((merge <|> (before.model ref).mergesParents).getD false = true →
        ∀ document, result ≠ .ok document)) ∨
    ∃ own ready sections, Passage resolver before [] ready ∧ SameModels before ready ∧
      (before.model ref).subject.plainDocument = .ok own ∧
      Inheriting resolver documentOf ref own.parents Sections.empty ready sections after ∧
      result = sections.map fun sections =>
        { own with sections := sections.overlay own.sections } := by
  have same := sameModels_derive present Subject.document
  cases documenting with
  | underived fails =>
      rw [fails] at same
      exact .inl ⟨.of_derive present Subject.yields_document fails, same, fun _ _ => nofun⟩
  | alone derives unmerged =>
      rw [derives] at same
      rw [same.mergesParents_eq present] at unmerged
      refine .inl ⟨.of_derive present Subject.yields_document derives, same, ?_⟩
      intro merging
      rw [merging] at unmerged
      cases unmerged
  | unparented derives merging fails =>
      rw [derives] at same
      have stays := (same.has_iff ref).mpr present
      have listed := sameModels_derive stays Subject.parents
      rw [fails] at listed
      have own : Passage resolver before [] _ :=
        .of_derive present Subject.yields_document derives
      exact .inl ⟨own.trans (.of_derive stays Subject.yields_parents fails),
        same.trans listed, fun _ _ => nofun⟩
  | @inherited own middle ready after parents sections derives merging lists inheriting =>
      obtain ⟨passed, sameReady, parents_eq⟩ := sound.lists_parents present derives lists
      have own_eq := sound.derive_result present Subject.yields_document derives
      have listed := Subject.plainParents_of_plainDocument own_eq.symm
      obtain rfl : parents = own.parents := Except.ok.inj (parents_eq.symm.trans listed)
      exact .inr ⟨own, ready, sections, passed resolver, sameReady, own_eq.symm, inheriting, rfl⟩

/-- A document that is returned with the members of parents comes from inheriting from
the parents that the contract declares. -/
theorem Sound.inheriting_of_document
    {resolver : ImportResolver}
    {depth : Nat}
    {before after : Traversal}
    {ref : ModelRef}
    {merge : Option Bool}
    {document : Document}
    (sound : before.Sound)
    (present : before.Has ref)
    (merging : (merge <|> (before.model ref).mergesParents).getD false = true)
    (returns : outcome (Traversal.document resolver (depth + 1) ref merge) before =
      (.ok document, after)) :
    ∃ own ready sections, Passage resolver before [] ready ∧
      (before.model ref).subject.plainDocument = .ok own ∧
      Inheriting resolver (fun parentRef => Traversal.document resolver depth parentRef none)
        ref own.parents Sections.empty ready (.ok sections) after ∧
      document = { own with sections := sections.overlay own.sections } := by
  have documenting := documenting_document resolver ref merge depth before
  rw [returns] at documenting
  rcases documenting.kept_or_inherited sound present with ⟨_, _, unreturned⟩ |
    ⟨own, ready, result, readied, _, own_eq, inheriting, result_eq⟩
  · exact absurd rfl (unreturned merging document)
  · cases result with
    | error failure => cases result_eq
    | ok sections =>
        exact ⟨own, ready, sections, readied, own_eq, inheriting, Except.ok.inj result_eq⟩

/-- Inheriting from declared parents is a passage with questions for declared parents
only, if making the documents of the parents is. -/
theorem Inheriting.passage
    {resolver : ImportResolver}
    {documentOf : ModelRef → Step Document}
    {ref : ModelRef}
    {entries : Entries String (Option String)}
    {inherited : Sections}
    {before after : Traversal}
    {result : Except Failure Sections}
    (inheriting : Inheriting resolver documentOf ref entries inherited before result after)
    (sound : before.Sound)
    (present : before.Has ref)
    (declared : ∀ name path, (name, some path) ∈ entries →
      (before.model ref).subject.Declares name path)
    (documents : ∀ parentRef state, state.Sound → state.Has parentRef →
      ∃ questions, Passage resolver state questions
        (outcome (documentOf parentRef) state).2 ∧
          ∀ question ∈ questions, question.Declared) :
    ∃ questions, Passage resolver before questions after ∧
      ∀ question ∈ questions, question.Declared := by
  induction inheriting with
  | done => exact ⟨[], .start, List.forall_mem_nil _⟩
  | skipped more ih =>
      exact ih sound present fun name path member =>
        declared name path (List.mem_cons_of_mem _ member)
  | @refused name path rest inherited before after failure refuses =>
      refine ⟨_, .of_parent present refuses, ?_⟩
      intro question member
      rw [List.mem_singleton.mp member]
      exact declared name path List.mem_cons_self
  | @broken name path rest inherited before middle after parentRef failure asks breaks =>
      have asking := Passage.of_parent present asks
      obtain ⟨questions, passage, allDeclared⟩ := documents parentRef middle
        (asking.sound sound) (sound.has_of_parent present asks)
      rw [breaks] at passage
      refine ⟨_, asking.trans passage, ?_⟩
      intro question member
      rcases List.mem_cons.mp member with rfl | member
      · exact declared name path List.mem_cons_self
      · exact allDeclared question member
  | @merged name path rest inherited before middle late after parentRef parentDocument
      result asks documented more ih =>
      have asking := Passage.of_parent present asks
      obtain ⟨questions, passage, allDeclared⟩ := documents parentRef middle
        (asking.sound sound) (sound.has_of_parent present asks)
      rw [documented] at passage
      have soFar := asking.trans passage
      have grown := soFar.grows
      obtain ⟨later, rest_passage, restDeclared⟩ := ih (soFar.sound sound)
        (grown.has present) (by
          intro other otherPath member
          rw [grown.subject_eq present]
          exact declared other otherPath (List.mem_cons_of_mem _ member))
      refine ⟨_, soFar.trans rest_passage, ?_⟩
      intro question member
      rcases List.mem_append.mp member with member | member
      · rcases List.mem_cons.mp member with rfl | member
        · exact declared name path List.mem_cons_self
        · exact allDeclared question member
      · exact restDeclared question member

/-- Making a document is a passage with questions for declared parents only. -/
theorem Sound.passage_document
    (resolver : ImportResolver)
    (depth : Nat)
    {before : Traversal}
    {ref : ModelRef}
    (merge : Option Bool)
    (sound : before.Sound)
    (present : before.Has ref) :
    ∃ questions, Passage resolver before questions
      (outcome (document resolver depth ref merge) before).2 ∧
        ∀ question ∈ questions, question.Declared := by
  induction depth generalizing before ref merge with
  | zero => exact ⟨[], .start, List.forall_mem_nil _⟩
  | succ depth ih =>
      have documenting := documenting_document resolver ref merge depth before
      generalize outcome (document resolver (depth + 1) ref merge) before = ended
        at documenting ⊢
      obtain ⟨result, after⟩ := ended
      rcases documenting.kept_or_inherited sound present with ⟨kept, _⟩ |
        ⟨own, ready, sections, readied, _, own_eq, inheriting, _⟩
      · exact ⟨[], kept, List.forall_mem_nil _⟩
      · have grown := readied.grows
        have listed := Subject.plainParents_of_plainDocument own_eq
        obtain ⟨questions, passage, allDeclared⟩ := inheriting.passage
          (readied.sound sound) (grown.has present)
          (by
            intro name path member
            rw [grown.subject_eq present]
            exact (Subject.declares_iff listed name path).mpr member)
          (fun parentRef state stateSound statePresent => ih none stateSound statePresent)
        exact ⟨questions, readied.trans passage, allDeclared⟩

end Traversal
end ContractDoc
