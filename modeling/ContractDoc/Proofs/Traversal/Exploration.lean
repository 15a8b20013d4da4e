import ContractDoc.Proofs.Traversal.Answered
import ContractDoc.Proofs.Traversal.Link

/-!
# Exploring the parents in order

A model is explored once all its declared parents are linked and explored.  While
a document is made on a fresh root, every model is explored, or it is open and its file
occurs in the lineage of the model at hand.  A parent that is not refused is therefore
new or explored already, and no question closes a circle.
-/

namespace ContractDoc
namespace Traversal

open Relation

/-- All declared parents of a model are linked, and so on upwards. -/
inductive Explored (state : Traversal) : ModelRef → Prop
  | intro {ref : ModelRef}
      (present : state.Has ref)
      (complete : ∀ name importPath,
        (state.model ref).subject.Declares name importPath →
          (Entries.get? ⟨importPath, name⟩ (state.model ref).parents).isSome)
      (parents : ∀ parentRef, state.Linked ref parentRef → Explored state parentRef) :
      Explored state ref

/-- A model is there and has not been explored. -/
def Open (state : Traversal) (ref : ModelRef) : Prop :=
  state.Has ref ∧ ¬state.Explored ref

namespace Explored

variable
  {state before after : Traversal}
  {ref other : ModelRef}

/-- Explored models are there. -/
theorem has (explored : state.Explored ref) : state.Has ref := by
  cases explored with
  | intro present complete parents => exact present

/-- Explored models lead to explored models only. -/
theorem reaches
    (explored : state.Explored ref)
    (way : state.Reaches ref other) :
    state.Explored other := by
  induction way with
  | refl => exact explored
  | tail _ linked ih =>
      cases ih with
      | intro present complete parents => exact parents _ linked

/-- A model that lacks a declared parent has not been explored. -/
theorem not_of_unknown
    {name importPath : String}
    (declares : (state.model ref).subject.Declares name importPath)
    (unknown : Entries.get? ⟨importPath, name⟩ (state.model ref).parents = none) :
    ¬state.Explored ref := by
  rintro ⟨_, complete, _⟩
  have known := complete name importPath declares
  rw [unknown] at known
  cases known

/-- A model stays explored if no model but an open one gets a new link. -/
theorem of_links_kept
    (explored : before.Explored other)
    (grows : Grows before after)
    (kept : ∀ child parentRef, before.Explored child → after.Linked child parentRef →
      before.Linked child parentRef) :
    after.Explored other := by
  induction explored with
  | @intro other present complete parents ih =>
      refine .intro (grows.has present) ?_ ?_
      · intro name importPath declares
        rw [grows.subject_eq present] at declares
        obtain ⟨ancestor, known⟩ := Option.isSome_iff_exists.mp (complete name importPath declares)
        rw [grows.get?_parents present known]
        rfl
      · intro parentRef linked
        exact ih parentRef (kept other parentRef (.intro present complete parents) linked)

/-- The same models are explored if only records differ. -/
theorem of_sameModels
    (explored : before.Explored other)
    (same : SameModels before after)
    (grows : Grows before after) :
    after.Explored other :=
  explored.of_links_kept grows fun child parentRef _ linked =>
    (same.linked_iff child parentRef).mp linked

/-- Attaching a declared parent keeps what has been explored. -/
theorem of_attached
    {importPath name : String}
    {resolved : ResolvedImport}
    (explored : before.Explored other)
    (attached : Attached before ref importPath name resolved after)
    (present : before.Has ref)
    (declares : (before.model ref).subject.Declares name importPath)
    (grows : Grows before after) :
    after.Explored other := by
  refine explored.of_links_kept grows ?_
  intro child parentRef childExplored linked
  rcases (attached.linked_iff present child parentRef).mp linked with old | ⟨rfl, _⟩
  · exact old
  · exact absurd childExplored (not_of_unknown declares attached.unknown)

/-- A question for a declared parent keeps what has been explored, and explored models
get no links by it. -/
theorem ask
    {question : Question}
    (explored : question.state.Explored other)
    (resolver : ImportResolver)
    (present : question.Present)
    (declared : question.Declared) :
    (question.after resolver).Explored other ∧
      ∀ parentRef, (question.after resolver).Linked other parentRef →
        question.state.Linked other parentRef := by
  have grows := grows_parent resolver question.importPath question.name present
  have asking := asking_parent resolver question.ref question.importPath question.name
    question.state
  rcases asking.kept_or_attached present with ⟨same, _⟩ | ⟨resolved, _, attached⟩
  · refine ⟨explored.of_sameModels same grows, ?_⟩
    exact fun parentRef linked => (same.linked_iff other parentRef).mp linked
  · refine ⟨explored.of_attached attached present declared grows, ?_⟩
    intro parentRef linked
    rcases (attached.linked_iff present other parentRef).mp linked with old | ⟨rfl, _⟩
    · exact old
    · exact absurd explored (not_of_unknown declared attached.unknown)

/-- Along a passage with questions for declared parents only, explored models stay
explored and get no links. -/
theorem passage
    {resolver : ImportResolver}
    {questions : List Question}
    (explored : before.Explored other)
    (passage : Passage resolver before questions after)
    (declared : ∀ question ∈ questions, question.Declared) :
    after.Explored other ∧
      ∀ parentRef, after.Linked other parentRef → before.Linked other parentRef := by
  induction passage with
  | start => exact ⟨explored, fun _ linked => linked⟩
  | @derive questions state ref α value plain passage present yields ih =>
      obtain ⟨still, kept⟩ := ih declared
      have same := sameModels_derive present value
      refine ⟨still.of_sameModels same (grows_derive present value), ?_⟩
      exact fun parentRef linked => kept parentRef ((same.linked_iff other parentRef).mp linked)
  | ask question passage present ih =>
      obtain ⟨still, kept⟩ :=
        ih fun other member => declared other (List.mem_append_left _ member)
      obtain ⟨later, laterKept⟩ := still.ask resolver present
        (declared question (List.mem_append_right _ List.mem_cons_self))
      exact ⟨later, fun parentRef linked => kept parentRef (laterKept parentRef linked)⟩

end Explored

/-! ## The model at hand -/

/-- All open ancestors have files in the lineage of a model. -/
def Guarded (state : Traversal) (ref : ModelRef) : Prop :=
  ∀ key, state.Open (.ancestor key) → key.path ∈ (state.model ref).lineage

/-- A model may be explored next.  Those of its parents that are linked have been
explored; and it has been explored itself, or it guards all open ancestors. -/
structure Ready (state : Traversal) (ref : ModelRef) : Prop where
  present : state.Has ref
  parents : ∀ parentRef, state.Linked ref parentRef → state.Explored parentRef
  explored_or_guarded : state.Explored ref ∨ state.Guarded ref

/-- Whatever has been explored may be explored again. -/
theorem Explored.ready
    {state : Traversal}
    {ref : ModelRef}
    (explored : state.Explored ref) :
    state.Ready ref := by
  refine ⟨explored.has, ?_, .inl explored⟩
  intro parentRef linked
  exact explored.reaches (.single linked)

/-- A model that may be explored closes no circle by asking for a declared parent. -/
theorem Ready.not_closesCircle
    (question : Question)
    (ready : question.state.Ready question.ref)
    (declared : question.Declared)
    (resolver : ImportResolver) :
    ¬question.ClosesCircle resolver := by
  rintro ⟨resolved, unknown, _, notInLineage, reaches⟩
  have unexplored := Explored.not_of_unknown declared unknown
  have present := reaches.has_first ready.present
  by_cases explored : question.state.Explored (.ancestor ⟨resolved.path, question.name⟩)
  · exact unexplored (explored.reaches reaches)
  · have guarded := ready.explored_or_guarded.resolve_left unexplored
    exact notInLineage (guarded _ ⟨present, explored⟩)

/-- A declared parent that a model returns was not open before, and may be explored next.  It is
the only model that may be open now and was not open before.  An open ancestor is guarded, and a
guarded one is refused for its lineage. -/
theorem Ready.parent
    {resolver : ImportResolver}
    {before after : Traversal}
    {ref parentRef : ModelRef}
    {importPath name : String}
    (ready : before.Ready ref)
    (declares : (before.model ref).subject.Declares name importPath)
    (sound : after.Sound)
    (nonempty : ∀ key resolved, Entries.get? key after.resolved = some resolved →
      resolved.path ≠ "")
    (returns : outcome (Traversal.parent resolver ref importPath name) before =
      (.ok parentRef, after)) :
    ¬before.Open parentRef ∧ after.Ready parentRef ∧
      ∀ other, after.Open other → before.Open other ∨ other = parentRef := by
  have present := ready.present
  have grows := grows_parent resolver importPath name present
  have asking := asking_parent resolver ref importPath name before
  rw [returns] at grows asking
  rcases asking.kept_or_attached present with ⟨same, linked⟩ | ⟨resolved, result_eq, attached⟩
  · obtain ⟨ancestor, rfl, known⟩ := linked parentRef rfl
    have explored := ready.parents _ ⟨present, _, ancestor, known, rfl⟩
    refine ⟨fun opened => opened.2 explored, (explored.of_sameModels same grows).ready, ?_⟩
    rintro other ⟨otherPresent, unexplored⟩
    refine .inl ⟨(same.has_iff other).mp otherPresent, ?_⟩
    exact fun otherExplored => unexplored (otherExplored.of_sameModels same grows)
  · obtain rfl := Except.ok.inj result_eq
    have guarded := ready.explored_or_guarded.resolve_left
      (Explored.not_of_unknown declares attached.unknown)
    have notOpen : ¬before.Open (.ancestor ⟨resolved.path, name⟩) :=
      fun opened => attached.notInLineage (guarded _ opened)
    have opens : ∀ other, after.Open other →
        before.Open other ∨ other = .ancestor ⟨resolved.path, name⟩ := by
      rintro other ⟨otherPresent, unexplored⟩
      refine ((attached.has_iff other).mp otherPresent).imp_left fun was => ⟨was, ?_⟩
      exact fun explored =>
        unexplored (explored.of_attached attached present declares grows)
    refine ⟨notOpen, ?_, opens⟩
    by_cases shared : before.Has (.ancestor ⟨resolved.path, name⟩)
    · have explored : before.Explored (.ancestor ⟨resolved.path, name⟩) :=
        not_not.mp fun unexplored => notOpen ⟨shared, unexplored⟩
      exact (explored.of_attached attached present declares grows).ready
    · have isNew := (attached.has_iff _).mpr (.inr rfl)
      have model_eq := attached.model_new shared
      refine ⟨isNew, ?_, .inr ?_⟩
      · rintro other ⟨_, key, ancestor, known, _⟩
        rw [model_eq] at known
        cases known
      · intro key opened
        have path_ne := nonempty _ _ attached.recorded
        rcases opens _ opened with was | key_eq
        · rw [model_eq]
          change key.path ∈ Model.extendLineage (before.model ref).lineage (some resolved.path)
          rw [Model.extendLineage_some path_ne, if_neg attached.notInLineage]
          exact List.mem_append_left _ (guarded key was)
        · obtain rfl := ModelRef.ancestor.inj key_eq
          exact (sound.matches_key _ isNew).mem_lineage path_ne

/-! ## What exploring a model does -/

/-- The effect of exploring a model.  No question closes a circle, and no open model
but the one at hand gets links.  If the exploration succeeds, nothing is open that was
not open before. -/
structure Explores
    (resolver : ImportResolver)
    (ref : ModelRef)
    (before after : Traversal)
    (succeeds : Prop) : Prop where
  passes : ∃ questions, Passage resolver before questions after ∧
    ∀ question ∈ questions, question.Declared ∧ ¬question.ClosesCircle resolver
  keeps : ∀ other, before.Open other → other ≠ ref → ∀ parentRef,
    after.Linked other parentRef → before.Linked other parentRef
  opens : succeeds → ∀ other, after.Open other → before.Open other

namespace Explores

variable
  {resolver : ImportResolver}
  {ref parentRef : ModelRef}
  {before middle after : Traversal}
  {succeeds : Prop}

theorem imp
    {claims : Prop}
    (explores : Explores resolver ref before after succeeds)
    (implies : claims → succeeds) :
    Explores resolver ref before after claims :=
  ⟨explores.passes, explores.keeps, fun claimed => explores.opens (implies claimed)⟩

/-- Steps that keep all models explore nothing. -/
theorem of_sameModels
    {questions : List Question}
    (passage : Passage resolver before questions after)
    (harmless : ∀ question ∈ questions,
      question.Declared ∧ ¬question.ClosesCircle resolver)
    (same : SameModels before after) :
    Explores resolver ref before after succeeds := by
  refine ⟨⟨questions, passage, harmless⟩, ?_, ?_⟩
  · intro other _ _ parentRef linked
    exact (same.linked_iff other parentRef).mp linked
  · rintro _ other ⟨present, unexplored⟩
    refine ⟨(same.has_iff other).mp present, ?_⟩
    exact fun explored => unexplored (explored.of_sameModels same passage.grows)

/-- Explored models stay explored. -/
theorem explored
    {other : ModelRef}
    (explores : Explores resolver ref before after succeeds)
    (explored : before.Explored other) :
    after.Explored other := by
  obtain ⟨questions, passage, harmless⟩ := explores.passes
  exact (explored.passage passage fun question member => (harmless question member).1).1

/-- Neither explored models nor open models other than the one at hand get links. -/
theorem linked_of_linked
    {other : ModelRef}
    (explores : Explores resolver ref before after succeeds)
    (present : before.Has other)
    (apart : before.Open other → other ≠ ref)
    (linked : after.Linked other parentRef) :
    before.Linked other parentRef := by
  by_cases explored : before.Explored other
  · obtain ⟨questions, passage, harmless⟩ := explores.passes
    exact (explored.passage passage fun question member =>
      (harmless question member).1).2 parentRef linked
  · exact explores.keeps other ⟨present, explored⟩ (apart ⟨present, explored⟩) parentRef linked

/-- Explorations of one model are put together. -/
theorem trans
    (first : Explores resolver ref before middle True)
    (second : Explores resolver ref middle after succeeds) :
    Explores resolver ref before after succeeds := by
  obtain ⟨questions, passage, harmless⟩ := first.passes
  obtain ⟨more, morePassage, moreHarmless⟩ := second.passes
  refine ⟨⟨_, passage.trans morePassage, ?_⟩, ?_, ?_⟩
  · intro question member
    exact (List.mem_append.mp member).elim (harmless question) (moreHarmless question)
  · intro other opened different parentRef linked
    refine first.keeps other opened different parentRef ?_
    exact second.linked_of_linked (passage.grows.has opened.1) (fun _ => different) linked
  · intro succeeded other opened
    exact first.opens trivial other (second.opens succeeded other opened)

/-- The parent of a model is explored as a part of exploring the model. -/
theorem through
    {importPath name : String}
    (ready : before.Ready ref)
    (declares : (before.model ref).subject.Declares name importPath)
    (asks : outcome (Traversal.parent resolver ref importPath name) before =
      (.ok parentRef, middle))
    (notOpen : ¬before.Open parentRef)
    (opens : ∀ other, middle.Open other → before.Open other ∨ other = parentRef)
    (explores : Explores resolver parentRef middle after succeeds)
    (finishes : succeeds → after.Explored parentRef) :
    Explores resolver ref before after succeeds := by
  have asking := Passage.of_parent ready.present asks
  have harmlessFirst := Ready.not_closesCircle ⟨before, ref, importPath, name⟩ ready declares
    resolver
  obtain ⟨questions, passage, harmless⟩ := explores.passes
  refine ⟨⟨_, asking.trans passage, ?_⟩, ?_, ?_⟩
  · intro question member
    rcases List.mem_cons.mp member with rfl | member
    · exact ⟨declares, harmlessFirst⟩
    · exact harmless question member
  · intro other opened different otherParent linked
    have apart : other ≠ parentRef := by
      rintro rfl
      exact notOpen opened
    have early := explores.linked_of_linked (asking.grows.has opened.1) (fun _ => apart) linked
    exact (early.of_after_parent ready.present asks).resolve_right fun asked =>
      different asked.1
  · intro succeeded other opened
    refine (opens other (explores.opens succeeded other opened)).resolve_right ?_
    rintro rfl
    exact opened.2 (finishes succeeded)

/-- A model may go on being explored if all its links lead to explored models. -/
theorem ready
    (explores : Explores resolver ref before after True)
    (ready : before.Ready ref)
    (parents : ∀ parentRef, after.Linked ref parentRef → after.Explored parentRef) :
    after.Ready ref := by
  obtain ⟨questions, passage, _⟩ := explores.passes
  refine ⟨passage.grows.has ready.present, parents, ?_⟩
  refine ready.explored_or_guarded.imp explores.explored ?_
  intro guarded key opened
  rw [passage.grows.lineage_eq ready.present]
  exact guarded key (explores.opens trivial _ opened)

end Explores

/-! ## Documents explore -/

/-- The paths on record are not empty if no answer has an empty path. -/
theorem Answered.path_ne
    {resolver : ImportResolver}
    {state : Traversal}
    (answered : Answered resolver state)
    {paths : List String}
    (within : resolver.Within paths)
    {key : ImportKey}
    {resolved : ResolvedImport}
    (found : Entries.get? key state.resolved = some resolved) :
    resolved.path ≠ "" := by
  obtain ⟨importer, _, answer⟩ := answered.recorded key resolved found
  exact within.path_ne answer

/-- Making the documents of ancestors explores them. -/
def ExploresAncestors
    (resolver : ImportResolver)
    (documentOf : ModelRef → Step Document) : Prop :=
  ∀ ancestor state result after, state.Sound → Answered resolver state →
    state.Ready (.ancestor ancestor) →
    outcome (documentOf (.ancestor ancestor)) state = (result, after) →
      Explores resolver (.ancestor ancestor) state after (∃ document, result = .ok document) ∧
        ((∃ document, result = .ok document) → after.Explored (.ancestor ancestor))

/-- Making the document of a declared parent explores a model, which is linked to the parent
afterwards.  If it succeeds, the model may go on being explored.  A model that is its own parent
has been explored before. -/
theorem Ready.explores_parent
    {resolver : ImportResolver}
    {paths : List String}
    {documentOf : ModelRef → Step Document}
    {ref parentRef : ModelRef}
    {importPath name : String}
    {before middle after : Traversal}
    {result : Except Failure Document}
    (ready : before.Ready ref)
    (within : resolver.Within paths)
    (sound : before.Sound)
    (answered : Answered resolver before)
    (declares : (before.model ref).subject.Declares name importPath)
    (explores : ExploresAncestors resolver documentOf)
    (asks : outcome (Traversal.parent resolver ref importPath name) before =
      (.ok parentRef, middle))
    (documents : outcome (documentOf parentRef) middle = (result, after)) :
    Explores resolver ref before after (∃ document, result = .ok document) ∧
      (Entries.get? ⟨importPath, name⟩ (after.model ref).parents).isSome ∧
      ((∃ document, result = .ok document) → after.Ready ref) := by
  have asking := Passage.of_parent ready.present asks
  have middleAnswered := answered.passage asking
  obtain ⟨notOpen, parentReady, opens⟩ := ready.parent declares (asking.sound sound)
    (fun _ _ found => middleAnswered.path_ne within found) asks
  obtain ⟨ancestor, rfl, known⟩ := linked_of_parent ready.present asks
  have stays := asking.grows.has ready.present
  obtain ⟨parentExplores, finishes⟩ := explores ancestor middle result after
    (asking.sound sound) middleAnswered parentReady documents
  have whole := Explores.through ready declares asks notOpen opens parentExplores finishes
  obtain ⟨questions, passage, _⟩ := parentExplores.passes
  refine ⟨whole, by rw [passage.grows.get?_parents stays known]; rfl, fun succeeds => ?_⟩
  have step : Explores resolver ref before after True := whole.imp fun _ => succeeds
  refine step.ready ready ?_
  intro otherParent linked
  have apart : middle.Open ref → ref ≠ .ancestor ancestor := by
    rintro opened rfl
    have explored : before.Explored (.ancestor ancestor) :=
      not_not.mp fun unexplored => notOpen ⟨ready.present, unexplored⟩
    have declaredOnly : ∀ question ∈ [(⟨before, .ancestor ancestor, importPath, name⟩ :
        Question)], question.Declared := by
      intro question member
      rw [List.mem_singleton.mp member]
      exact declares
    exact opened.2 (explored.passage asking declaredOnly).1
  have early := parentExplores.linked_of_linked stays apart linked
  rcases early.of_after_parent ready.present asks with old | ⟨_, rfl⟩
  · exact step.explored (ready.parents otherParent old)
  · exact finishes succeeds

/-- Inheriting from declared parents explores a model, if making the documents of the
parents explores them.  If it succeeds, all parents are linked and explored. -/
theorem Inheriting.explores
    {resolver : ImportResolver}
    {paths : List String}
    {documentOf : ModelRef → Step Document}
    {ref : ModelRef}
    {entries : Entries String (Option String)}
    {inherited : Sections}
    {before after : Traversal}
    {result : Except Failure Sections}
    (inheriting : Inheriting resolver documentOf ref entries inherited before result after)
    (within : resolver.Within paths)
    (sound : before.Sound)
    (answered : Answered resolver before)
    (ready : before.Ready ref)
    (declared : ∀ name path, (name, some path) ∈ entries →
      (before.model ref).subject.Declares name path)
    (explores : ExploresAncestors resolver documentOf) :
    Explores resolver ref before after (∃ sections, result = .ok sections) ∧
      ((∃ sections, result = .ok sections) →
        (∀ parentRef, after.Linked ref parentRef → after.Explored parentRef) ∧
          ∀ name path, (name, some path) ∈ entries →
            (Entries.get? ⟨path, name⟩ (after.model ref).parents).isSome) := by
  induction inheriting with
  | @done inherited state =>
      refine ⟨.of_sameModels .start (List.forall_mem_nil _) (.refl state), fun _ => ?_⟩
      exact ⟨ready.parents, nofun⟩
  | @skipped name rest inherited before after result more ih =>
      obtain ⟨restExplores, finishes⟩ := ih sound answered ready fun name path member =>
        declared name path (List.mem_cons_of_mem _ member)
      refine ⟨restExplores, fun succeeds => ⟨(finishes succeeds).1, ?_⟩⟩
      intro other path member
      rcases List.mem_cons.mp member with equal | member
      · cases equal
      · exact (finishes succeeds).2 other path member
  | @refused name path rest inherited before after failure refuses =>
      have declares := declared name path List.mem_cons_self
      have harmless := Ready.not_closesCircle ⟨before, ref, path, name⟩ ready declares resolver
      refine ⟨.of_sameModels (.of_parent ready.present refuses) ?_
        (sameModels_of_parent_error ready.present refuses), nofun⟩
      intro question member
      rw [List.mem_singleton.mp member]
      exact ⟨declares, harmless⟩
  | @broken name path rest inherited before middle after parentRef failure asks breaks =>
      have declares := declared name path List.mem_cons_self
      obtain ⟨step, _⟩ := ready.explores_parent within sound answered declares explores asks
        breaks
      exact ⟨step.imp nofun, nofun⟩
  | @merged name path rest inherited before middle late after parentRef parentDocument
      result asks documents more ih =>
      have declares := declared name path List.mem_cons_self
      obtain ⟨parentStep, known, lateReady⟩ := ready.explores_parent within sound answered declares
        explores asks documents
      have step : Explores resolver ref before late True :=
        parentStep.imp fun _ => ⟨parentDocument, rfl⟩
      obtain ⟨questions, passage, _⟩ := step.passes
      have grown := passage.grows
      obtain ⟨restExplores, finishes⟩ := ih (passage.sound sound) (answered.passage passage)
        (lateReady ⟨parentDocument, rfl⟩) (by
          intro other otherPath member
          rw [grown.subject_eq ready.present]
          exact declared other otherPath (List.mem_cons_of_mem _ member))
      refine ⟨step.trans restExplores, fun succeeds => ⟨(finishes succeeds).1, ?_⟩⟩
      intro other otherPath member
      rcases List.mem_cons.mp member with equal | member
      · obtain ⟨rfl, path_eq⟩ := Prod.mk.inj equal
        obtain rfl := Option.some.inj path_eq
        obtain ⟨_, restPassage, _⟩ := restExplores.passes
        obtain ⟨ancestor, linked⟩ := Option.isSome_iff_exists.mp known
        rw [restPassage.grows.get?_parents (grown.has ready.present) linked]
        rfl
      · exact (finishes succeeds).2 other otherPath member

/-- Making a document explores a model.  If it succeeds with the members of parents, the
model has been explored. -/
theorem Ready.explores_document
    {resolver : ImportResolver}
    {paths : List String}
    {depth : Nat}
    {ref : ModelRef}
    {merge : Option Bool}
    {before after : Traversal}
    {result : Except Failure Document}
    (ready : before.Ready ref)
    (within : resolver.Within paths)
    (sound : before.Sound)
    (answered : Answered resolver before)
    (documents : outcome (document resolver depth ref merge) before = (result, after)) :
    Explores resolver ref before after (∃ document, result = .ok document) ∧
      ((merge <|> (before.model ref).mergesParents).getD false = true →
        (∃ document, result = .ok document) → after.Explored ref) := by
  induction depth generalizing before after ref merge result with
  | zero =>
      obtain ⟨rfl, rfl⟩ := Prod.mk.inj documents
      exact ⟨.of_sameModels .start (List.forall_mem_nil _) (.refl _), nofun⟩
  | succ depth ih =>
      have present := ready.present
      have documenting := documenting_document resolver ref merge depth before
      rw [documents] at documenting
      rcases documenting.kept_or_inherited sound present with ⟨kept, same, unreturned⟩ |
        ⟨own, prepared, sections, passed, same, own_eq, inheriting, result_eq⟩
      · refine ⟨.of_sameModels kept (List.forall_mem_nil _) same, ?_⟩
        rintro merging ⟨document, succeeds⟩
        exact absurd succeeds (unreturned merging document)
      · have listed := Subject.plainParents_of_plainDocument own_eq
        have first : Explores resolver ref before prepared True :=
          .of_sameModels passed (List.forall_mem_nil _) same
        have preparedReady : prepared.Ready ref := by
          refine first.ready ready ?_
          intro parentRef linked
          exact first.explored (ready.parents parentRef
            ((same.linked_iff ref parentRef).mp linked))
        have explores : ExploresAncestors resolver
            (fun parentRef => document resolver depth parentRef none) := by
          intro ancestor state result after stateSound stateAnswered stateReady made
          obtain ⟨ancestorExplores, finishes⟩ := ih stateReady stateSound stateAnswered made
          exact ⟨ancestorExplores, finishes (stateSound.merges_ancestor stateReady.present)⟩
        obtain ⟨inherits, finishes⟩ := inheriting.explores within (passed.sound sound)
          (answered.passage passed) preparedReady
          (by
            intro name path member
            rw [same.subject_eq present]
            exact (Subject.declares_iff listed name path).mpr member)
          explores
        have whole := first.trans inherits
        have succeeds_of : (∃ document, result = .ok document) →
            ∃ members, sections = .ok members := by
          rintro ⟨document, rfl⟩
          cases sections with
          | error failure => cases result_eq
          | ok members => exact ⟨members, rfl⟩
        refine ⟨whole.imp succeeds_of, ?_⟩
        rintro - succeeds
        obtain ⟨questions, passage, _⟩ := whole.passes
        obtain ⟨parentsExplored, complete⟩ := finishes (succeeds_of succeeds)
        refine .intro (passage.grows.has present) ?_ parentsExplored
        intro name importPath declares
        rw [passage.grows.subject_eq present, Subject.declares_iff listed] at declares
        exact complete name importPath declares

/-- At the start the root may be explored. -/
theorem ready_start (subject : Subject) (mergesParents : Option Bool) :
    (start subject mergesParents).Ready .root := by
  refine ⟨has_root _, ?_, .inr ?_⟩
  · rintro parentRef ⟨_, key, ancestor, known, _⟩
    cases known
  · rintro key ⟨present, _⟩
    cases present

/-- Making a document on a fresh root leaves no circle, whatever the limit. -/
theorem not_circular_document_start
    {resolver : ImportResolver}
    {paths : List String}
    (within : resolver.Within paths)
    (subject : Subject)
    (mergesParents merge : Option Bool)
    (depth : Nat) :
    ¬(outcome (document resolver depth .root merge)
      (start subject mergesParents)).2.Circular := by
  rcases documents : outcome (document resolver depth .root merge)
    (start subject mergesParents) with ⟨result, after⟩
  obtain ⟨explores, _⟩ := (ready_start subject mergesParents).explores_document within
    (.start subject mergesParents) (.start subject mergesParents) documents
  obtain ⟨questions, passage, harmless⟩ := explores.passes
  rw [passage.circular_iff]
  rintro (circular | ⟨question, member, closes⟩)
  · exact not_circular_start subject mergesParents circular
  · exact (harmless question member).2 closes

end Traversal
end ContractDoc
