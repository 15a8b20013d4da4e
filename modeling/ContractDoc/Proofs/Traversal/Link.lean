import ContractDoc.Proofs.Traversal.Passage
import Mathlib.Logic.Relation

/-!
# Links and circles

The links of a traversal lead from models to their parents.  A question for a parent
adds at most one link, so the links get circular exactly when a model is linked to
a parent from which it has been reached before.  The lineage of a model does not
always tell.
-/

namespace ContractDoc
namespace Traversal

open Relation

/-- One model has been linked to another one as its parent. -/
def Linked (state : Traversal) (child parent : ModelRef) : Prop :=
  state.Has child ∧ ∃ key ancestor,
    Entries.get? key (state.model child).parents = some ancestor ∧
      parent = .ancestor ancestor

/-- One model is reached from another one along links. -/
def Reaches (state : Traversal) : ModelRef → ModelRef → Prop :=
  ReflTransGen state.Linked

/-- Some model is reached from itself along one link or more. -/
def Circular (state : Traversal) : Prop :=
  ∃ ref, TransGen state.Linked ref ref

section Links

variable {before after : Traversal}

/-- Links stay while a traversal grows. -/
theorem Linked.of_grows
    {child parent : ModelRef}
    (linked : before.Linked child parent)
    (grows : Grows before after) :
    after.Linked child parent := by
  obtain ⟨present, key, ancestor, known, rfl⟩ := linked
  exact ⟨grows.has present, key, ancestor, grows.get?_parents present known, rfl⟩

/-- In a sound traversal links lead to models that are there. -/
theorem Linked.has_parent
    {child parent : ModelRef}
    (linked : before.Linked child parent)
    (sound : before.Sound) :
    before.Has parent := by
  obtain ⟨present, key, ancestor, known, rfl⟩ := linked
  exact (sound.leads child present key ancestor known).present

/-- A model is linked to a parent that it returns. -/
theorem Linked.of_parent
    {resolver : ImportResolver}
    {ref parentRef : ModelRef}
    {importPath name : String}
    (present : before.Has ref)
    (returns : outcome (parent resolver ref importPath name) before =
      (.ok parentRef, after)) :
    after.Linked ref parentRef := by
  have grows := grows_parent resolver importPath name present
  rw [returns] at grows
  obtain ⟨ancestor, rfl, known⟩ := linked_of_parent present returns
  exact ⟨grows.has present, _, ancestor, known, rfl⟩

/-- No link leads away from a model that is not there. -/
theorem Reaches.has_first
    {first second : ModelRef}
    (reaches : before.Reaches first second)
    (present : before.Has second) :
    before.Has first := by
  rcases reaches.cases_head with rfl | ⟨next, linked, _⟩
  · exact present
  · exact linked.1

/-- The same models have the same links. -/
theorem SameModels.linked_iff
    (same : SameModels before after)
    (child parent : ModelRef) :
    after.Linked child parent ↔ before.Linked child parent := by
  unfold Linked
  rw [same.has_iff child]
  constructor
  · rintro ⟨present, linked⟩
    rw [same.parents_eq present] at linked
    exact ⟨present, linked⟩
  · rintro ⟨present, linked⟩
    rw [← same.parents_eq present] at linked
    exact ⟨present, linked⟩

theorem SameModels.linked_eq (same : SameModels before after) :
    after.Linked = before.Linked := by
  funext child parent
  exact propext (same.linked_iff child parent)

theorem SameModels.circular_iff (same : SameModels before after) :
    after.Circular ↔ before.Circular := by
  unfold Circular
  rw [same.linked_eq]

/-- Attaching a parent adds one link. -/
theorem Attached.linked_iff
    {ref : ModelRef}
    {importPath name : String}
    {resolved : ResolvedImport}
    (attached : Attached before ref importPath name resolved after)
    (present : before.Has ref)
    (child parent : ModelRef) :
    after.Linked child parent ↔
      before.Linked child parent ∨
        child = ref ∧ parent = .ancestor ⟨resolved.path, name⟩ := by
  by_cases was : before.Has child
  · have is : after.Has child := (attached.has_iff child).mpr (.inl was)
    unfold Linked
    rw [attached.parents_eq was]
    by_cases asked : child = ref
    · subst asked
      rw [if_pos rfl, ← Entries.insert_of_get?_eq_none _ attached.unknown]
      constructor
      · rintro ⟨_, key, ancestor, known, rfl⟩
        rw [Entries.get?_insert] at known
        split at known
        · exact .inr ⟨rfl, by rw [Option.some.inj known]⟩
        · exact .inl ⟨was, key, ancestor, known, rfl⟩
      · rintro (⟨_, key, ancestor, known, rfl⟩ | ⟨_, rfl⟩)
        · refine ⟨is, key, ancestor, ?_, rfl⟩
          have different : key ≠ ⟨importPath, name⟩ := by
            intro same
            rw [same, attached.unknown] at known
            cases known
          rw [Entries.get?_insert_of_ne different]
          exact known
        · exact ⟨is, _, _, Entries.get?_insert_self .., rfl⟩
    · rw [if_neg asked]
      simp only [asked, false_and, or_false, was, is]
  · have new_of_linked : ¬after.Linked child parent := by
      rintro ⟨is, key, ancestor, known, _⟩
      obtain rfl := ((attached.has_iff child).mp is).resolve_left was
      rw [attached.model_new was] at known
      cases known
    constructor
    · intro linked
      exact absurd linked new_of_linked
    · rintro (linked | ⟨rfl, _⟩)
      · exact absurd linked.1 was
      · exact absurd present was

/-- A model that returns a parent gets no other link, and no other model does. -/
theorem Linked.of_after_parent
    {resolver : ImportResolver}
    {ref parentRef child other : ModelRef}
    {importPath name : String}
    (linked : after.Linked child other)
    (present : before.Has ref)
    (returns : outcome (parent resolver ref importPath name) before =
      (.ok parentRef, after)) :
    before.Linked child other ∨ child = ref ∧ other = parentRef := by
  have asking := asking_parent resolver ref importPath name before
  rw [returns] at asking
  rcases asking.kept_or_attached present with ⟨same, _⟩ | ⟨resolved, result_eq, attached⟩
  · exact .inl ((same.linked_iff child other).mp linked)
  · rw [Except.ok.inj result_eq]
    exact (attached.linked_iff present child other).mp linked

end Links

/-! ## Adding one link -/

section Adding

variable
  {α : Type}
  {few many : α → α → Prop}
  {source target : α}

/-- A way over one more link uses it or not. -/
theorem transGen_or_of_added
    (added : ∀ first second, many first second ↔
      few first second ∨ first = source ∧ second = target)
    {first second : α}
    (way : TransGen many first second) :
    TransGen few first second ∨
      ReflTransGen few first source ∧ ReflTransGen few target second := by
  induction way with
  | single step =>
      rcases (added _ _).mp step with old | ⟨rfl, rfl⟩
      · exact .inl (.single old)
      · exact .inr ⟨.refl, .refl⟩
  | tail _ step ih =>
      rcases (added _ _).mp step with old | ⟨rfl, rfl⟩
      · rcases ih with whole | ⟨toSource, fromTarget⟩
        · exact .inl (whole.tail old)
        · exact .inr ⟨toSource, fromTarget.tail old⟩
      · rcases ih with whole | ⟨toSource, _⟩
        · exact .inr ⟨whole.to_reflTransGen, .refl⟩
        · exact .inr ⟨toSource, .refl⟩

/-- One more link makes a circle exactly if there is a way back. -/
theorem exists_transGen_self_iff_of_added
    (added : ∀ first second, many first second ↔
      few first second ∨ first = source ∧ second = target) :
    (∃ place, TransGen many place place) ↔
      (∃ place, TransGen few place place) ∨ ReflTransGen few target source := by
  have more : ∀ first second, few first second → many first second :=
    fun first second old => (added first second).mpr (.inl old)
  constructor
  · rintro ⟨place, way⟩
    rcases transGen_or_of_added added way with old | ⟨toSource, fromTarget⟩
    · exact .inl ⟨place, old⟩
    · exact .inr (fromTarget.trans toSource)
  · rintro (⟨place, old⟩ | back)
    · exact ⟨place, TransGen.mono more _ _ old⟩
    · have step : many source target := (added _ _).mpr (.inr ⟨rfl, rfl⟩)
      exact ⟨source, TransGen.head' step (ReflTransGen.mono more _ _ back)⟩

end Adding

/-! ## Questions that close a circle -/

/-- A resolved import is what resolving the import returns. -/
theorem Resolving.outcome_eq
    {resolver : ImportResolver}
    {importPath : String}
    {importer : Option String}
    {before after : Traversal}
    {result : Except Failure ResolvedImport}
    (resolving : Resolving resolver importPath importer before result after) :
    outcome (resolveImport resolver importPath importer) before = (result, after) := by
  unfold resolveImport
  rw [outcome_bind_of_ok (outcome_get before)]
  cases resolving with
  | known found =>
      rw [found]
      rfl
  | answered unknown answer =>
      rw [unknown]
      simp only [answer]
      rfl
  | failed unknown answer =>
      rw [unknown]
      simp only [answer]
      rfl

/-- A parent that was not linked before comes from resolving its import. -/
theorem Asking.resolves
    {resolver : ImportResolver}
    {ref : ModelRef}
    {importPath name : String}
    {before after : Traversal}
    {ancestor : AncestorKey}
    (asking : Asking resolver ref importPath name before (.ok (.ancestor ancestor)) after)
    (unknown : Entries.get? ⟨importPath, name⟩ (before.model ref).parents = none) :
    ∃ resolved, ancestor = ⟨resolved.path, name⟩ ∧
      (outcome (resolveImport resolver importPath (before.model ref).subject.filePath)
        before).1 = .ok resolved := by
  cases asking with
  | linked known =>
      rw [known] at unknown
      cases unknown
  | shared _ resolving _ _ => exact ⟨_, rfl, by rw [resolving.outcome_eq]⟩
  | built _ resolving _ _ _ => exact ⟨_, rfl, by rw [resolving.outcome_eq]⟩

namespace Question

/-- The question closes a circle.  Its answer is not linked yet and its file does not
occur in the lineage of the model, but the model has been reached from it. -/
def ClosesCircle (question : Question) (resolver : ImportResolver) : Prop :=
  ∃ resolved,
    Entries.get? ⟨question.importPath, question.name⟩
      (question.state.model question.ref).parents = none ∧
    (outcome (resolveImport resolver question.importPath
      (question.state.model question.ref).subject.filePath) question.state).1 =
        .ok resolved ∧
    resolved.path ∉ (question.state.model question.ref).lineage ∧
    question.state.Reaches (.ancestor ⟨resolved.path, question.name⟩) question.ref

/-- A question that closes a circle attaches a parent from which the model has been
reached. -/
theorem ClosesCircle.attached
    {question : Question}
    {resolver : ImportResolver}
    (closes : question.ClosesCircle resolver)
    (present : question.Present) :
    ∃ resolved,
      Attached question.state question.ref question.importPath question.name resolved
        (question.after resolver) ∧
      question.state.Reaches (.ancestor ⟨resolved.path, question.name⟩) question.ref := by
  obtain ⟨resolved, unknown, resolves, notInLineage, reaches⟩ := closes
  have built := reaches.has_first present
  have asking := asking_parent resolver question.ref question.importPath question.name
    question.state
  unfold Question.after
  generalize outcome (parent resolver question.ref question.importPath question.name)
    question.state = ended at asking ⊢
  obtain ⟨result, after⟩ := ended
  cases asking with
  | linked known =>
      rw [known] at unknown
      cases unknown
  | unresolved _ resolving =>
      rw [resolving.outcome_eq] at resolves
      cases resolves
  | circular _ resolving inLineage =>
      rw [resolving.outcome_eq] at resolves
      obtain rfl := Except.ok.inj resolves
      exact absurd inLineage notInLineage
  | unnamed _ resolving _ absent fails =>
      rw [resolving.outcome_eq] at resolves
      obtain rfl := Except.ok.inj resolves
      exact absurd built absent
  | built _ resolving _ absent derives =>
      rw [resolving.outcome_eq] at resolves
      obtain rfl := Except.ok.inj resolves
      exact absurd built absent
  | shared _ resolving _ _ =>
      rw [resolving.outcome_eq] at resolves
      obtain rfl := Except.ok.inj resolves
      exact ⟨_, attached_link resolving.sameModels present built unknown notInLineage
        resolving.get?_resolved, reaches⟩

/-- A question makes the links circular exactly if it closes a circle. -/
theorem circular_after_iff
    {question : Question}
    (present : question.Present)
    (resolver : ImportResolver) :
    (question.after resolver).Circular ↔
      question.state.Circular ∨ question.ClosesCircle resolver := by
  constructor
  · intro circular
    have asking := asking_parent resolver question.ref question.importPath question.name
      question.state
    rcases asking.kept_or_attached present with ⟨same, _⟩ | ⟨found, result_eq, attached⟩
    · exact .inl (same.circular_iff.mp circular)
    · rcases (exists_transGen_self_iff_of_added (attached.linked_iff present)).mp circular
        with old | back
      · exact .inl old
      · rw [result_eq] at asking
        obtain ⟨resolved, key_eq, resolves⟩ := asking.resolves attached.unknown
        have path_eq : found.path = resolved.path := (AncestorKey.mk.inj key_eq).1
        rw [path_eq] at back
        exact .inr ⟨resolved, attached.unknown, resolves,
          path_eq ▸ attached.notInLineage, back⟩
  · rintro (circular | closes)
    · obtain ⟨ref, way⟩ := circular
      have grows := grows_parent resolver question.importPath question.name present
      exact ⟨ref, TransGen.mono (fun _ _ linked => linked.of_grows grows) _ _ way⟩
    · obtain ⟨resolved, attached, back⟩ := closes.attached present
      exact (exists_transGen_self_iff_of_added (attached.linked_iff present)).mpr
        (.inr back)

end Question

/-- Along a passage the links get circular exactly if a question closes a circle. -/
theorem Passage.circular_iff
    {resolver : ImportResolver}
    {start state : Traversal}
    {questions : List Question}
    (passage : Passage resolver start questions state) :
    state.Circular ↔
      start.Circular ∨ ∃ question ∈ questions, question.ClosesCircle resolver := by
  induction passage with
  | start => simp
  | derive passage present yields ih =>
      rw [(sameModels_derive present _).circular_iff]
      exact ih
  | ask question passage present ih =>
      rw [Question.circular_after_iff present, ih]
      simp only [List.mem_append, List.mem_singleton, or_and_right, exists_or,
        exists_eq_left, or_assoc]

/-- At the start there are no links. -/
theorem not_linked_start
    (subject : Subject)
    (mergesParents : Option Bool)
    (child parent : ModelRef) :
    ¬(start subject mergesParents).Linked child parent := by
  rintro ⟨present, key, ancestor, known, _⟩
  cases child with
  | root => cases known
  | ancestor key => cases present

theorem not_circular_start (subject : Subject) (mergesParents : Option Bool) :
    ¬(start subject mergesParents).Circular := by
  rintro ⟨ref, way⟩
  obtain ⟨next, linked, _⟩ := TransGen.head'_iff.mp way
  exact not_linked_start subject mergesParents ref next linked

end Traversal
end ContractDoc
