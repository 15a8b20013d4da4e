import ContractDoc.Proofs.Traversal.Call
import ContractDoc.Proofs.Traversal.Link

/-!
# States that are alike

Two states of a traversal are alike if they differ only in what their models know, in
the calls of the resolver and in the notices.  Whatever is asked of a traversal has the
same result in states that are alike, and leaves states that are alike.

A question for a parent that has been asked before has the same result again: a parent
that was returned is linked, and nothing has been learnt from a refusal that could
change it.
-/

namespace ContractDoc
namespace Traversal

variable
  {resolver : ImportResolver}
  {ref : ModelRef}

/-- Two states are alike if they have the same models, up to what these know, and the
same imports on record. -/
structure Alike (first second : Traversal) : Prop where
  sameModels : SameModels first second
  resolved_eq : second.resolved = first.resolved

/-- A later state covers an earlier one if its models have grown out of those of the
earlier one. -/
structure Covers (early late : Traversal) : Prop where
  has : ∀ {ref}, early.Has ref → late.Has ref
  model_grows : ∀ {ref}, early.Has ref → (early.model ref).Grows (late.model ref)

theorem SameModels.symm
    {first second : Traversal}
    (same : SameModels first second) :
    SameModels second first := by
  refine ⟨same.keys_eq.symm, ?_⟩
  intro ref present
  rw [same.model_eq ref ((same.has_iff ref).mp present)]

namespace Alike

variable {first second third : Traversal}

theorem refl (state : Traversal) : Alike state state :=
  ⟨.refl state, rfl⟩

theorem symm (alike : Alike first second) : Alike second first :=
  ⟨alike.sameModels.symm, alike.resolved_eq.symm⟩

theorem trans (left : Alike first second) (right : Alike second third) :
    Alike first third :=
  ⟨left.sameModels.trans right.sameModels, right.resolved_eq.trans left.resolved_eq⟩

theorem has (alike : Alike first second) (present : first.Has ref) : second.Has ref :=
  (alike.sameModels.has_iff ref).mpr present

theorem covers (alike : Alike first second) : Covers first second where
  has := alike.has
  model_grows := by
    intro ref present
    have same := alike.sameModels
    exact ⟨same.subject_eq present, same.mergesParents_eq present, same.lineage_eq present,
      same.parents_eq present ▸ List.prefix_rfl⟩

/-- A derivation leaves a state that is alike. -/
theorem of_derive
    {α : Type}
    {value : Subject → Derive α}
    {result : Except Failure α}
    (present : first.Has ref)
    (derives : outcome (derive ref value) first = (result, second)) :
    Alike first second := by
  have same := sameModels_derive present value
  have resolved_eq := resolved_derive ref value first
  rw [derives] at same resolved_eq
  exact ⟨same, resolved_eq⟩

end Alike

namespace Covers

variable {first second third : Traversal}

theorem of_grows (grows : Grows first second) : Covers first second :=
  ⟨grows.has, grows.model_grows _⟩

theorem trans (left : Covers first second) (right : Covers second third) :
    Covers first third where
  has := fun present => right.has (left.has present)
  model_grows := by
    intro ref present
    have early := left.model_grows present
    have late := right.model_grows (left.has present)
    exact ⟨late.subject_eq.trans early.subject_eq,
      late.mergesParents_eq.trans early.mergesParents_eq,
      late.lineage_eq.trans early.lineage_eq,
      early.parents_grow.trans late.parents_grow⟩

end Covers

/-! ## Resolving an import -/

section Resolving

variable
  {importPath name : String}
  {importer : Option String}
  {before after other : Traversal}

/-- Resolving an import keeps a traversal sound. -/
theorem Resolving.sound
    {result : Except Failure ResolvedImport}
    (resolving : Resolving resolver importPath importer before result after)
    (sound : before.Sound) :
    after.Sound :=
  sound.of_sameModels resolving.sameModels resolving.grows
    (resolving.truthful sound.truthful)

/-- An import is resolved alike in states that are alike. -/
theorem Resolving.congr
    {result : Except Failure ResolvedImport}
    (resolving : Resolving resolver importPath importer before result after)
    (alike : Alike before other) :
    ∃ otherAfter, Resolving resolver importPath importer other result otherAfter ∧
      Alike after otherAfter := by
  cases resolving with
  | known found =>
      rw [← alike.resolved_eq] at found
      exact ⟨other, .known found, alike⟩
  | @answered resolved unknown answer =>
      rw [← alike.resolved_eq] at unknown
      refine ⟨_, .answered unknown answer, ?_⟩
      have left : SameModels ((before.afterCall resolver importPath importer).record
          (.ofImport importPath importer) resolved) before := .of_eq rfl rfl
      refine ⟨(left.trans alike.sameModels).trans (.of_eq rfl rfl), ?_⟩
      change Entries.insert _ _ other.resolved = Entries.insert _ _ before.resolved
      rw [alike.resolved_eq]
  | failed unknown answer =>
      rw [← alike.resolved_eq] at unknown
      refine ⟨_, .failed unknown answer, ?_⟩
      have left : SameModels (before.afterCall resolver importPath importer) before :=
        .of_eq rfl rfl
      exact ⟨(left.trans alike.sameModels).trans (.of_eq rfl rfl), alike.resolved_eq⟩

/-- An import is resolved as before if nothing has been recorded since. -/
theorem Resolving.again
    {result : Except Failure ResolvedImport}
    (resolving : Resolving resolver importPath importer before result after)
    (alike : Alike after other) :
    ∃ otherAfter, Resolving resolver importPath importer other result otherAfter ∧
      Alike other otherAfter := by
  cases result with
  | ok resolved =>
      have found := resolving.get?_resolved
      rw [← alike.resolved_eq] at found
      exact ⟨other, .known found, .refl other⟩
  | error failure =>
      cases resolving with
      | failed unknown answer =>
          have still : Entries.get? (.ofImport importPath importer) other.resolved = none := by
            rw [alike.resolved_eq]
            exact unknown
          exact ⟨_, .failed still answer, .of_eq rfl rfl, rfl⟩

end Resolving

/-! ## Asking for a parent -/

section Asking

variable
  {importPath name : String}
  {before after other otherAfter : Traversal}
  {result : Except Failure ModelRef}

/-- Each case of asking for a parent determines the outcome. -/
theorem Asking.outcome_eq
    (asking : Asking resolver ref importPath name before result after) :
    outcome (parent resolver ref importPath name) before = (result, after) := by
  unfold parent
  have looked : outcome (getModel ref) before = (.ok (before.model ref), before) := rfl
  rw [outcome_bind_of_ok looked]
  cases asking with
  | linked known =>
      rw [known]
      rfl
  | unresolved unknown resolving =>
      rw [unknown]
      exact outcome_bind_of_error resolving.outcome_eq
  | circular unknown resolving inLineage =>
      rw [unknown]
      simp only [outcome_bind_of_ok resolving.outcome_eq, List.contains_iff_mem, inLineage,
        if_true]
      rfl
  | unnamed unknown resolving notInLineage absent fails =>
      rw [unknown]
      have stillAbsent := fun found => absent ((resolving.sameModels.has_iff _).mp found)
      have registers := outcome_register_of_not_has stillAbsent ref
      rw [fails] at registers
      simp only [outcome_bind_of_ok resolving.outcome_eq, List.contains_iff_mem, notInLineage,
        if_false]
      exact outcome_bind_of_error registers
  | shared unknown resolving notInLineage present =>
      rw [unknown]
      have registers := outcome_register_of_has
        ((resolving.sameModels.has_iff _).mpr present) ref
      simp only [outcome_bind_of_ok resolving.outcome_eq, List.contains_iff_mem, notInLineage,
        if_false]
      exact outcome_bind_of_ok registers
  | built unknown resolving notInLineage absent derives =>
      rw [unknown]
      have stillAbsent := fun found => absent ((resolving.sameModels.has_iff _).mp found)
      have registers := outcome_register_of_not_has stillAbsent ref
      rw [derives] at registers
      simp only [outcome_bind_of_ok resolving.outcome_eq, List.contains_iff_mem, notInLineage,
        if_false]
      exact outcome_bind_of_ok registers

/-- In sound states of the same model the same name is derived. -/
theorem Sound.derive_name_congr
    {nameResult : Except Failure String}
    (sound : before.Sound)
    (otherSound : other.Sound)
    (present : before.Has ref)
    (alike : Alike before other)
    (derives : outcome (Traversal.derive ref Subject.name) before = (nameResult, after)) :
    ∃ otherAfter, outcome (Traversal.derive ref Subject.name) other =
      (nameResult, otherAfter) := by
  have result_eq := sound.derive_result present Subject.yields_name derives
  rcases otherDerives : outcome (Traversal.derive ref Subject.name) other with
    ⟨otherResult, otherAfter⟩
  have otherResult_eq := otherSound.derive_result (alike.has present) Subject.yields_name
    otherDerives
  rw [alike.sameModels.subject_eq present, ← result_eq] at otherResult_eq
  exact ⟨otherAfter, by rw [otherResult_eq]⟩

/-- States that have been left by the same question are alike if those before it are
and if the same imports are on record. -/
theorem Asking.alike
    (asking : Asking resolver ref importPath name before result after)
    (otherAsking : Asking resolver ref importPath name other result otherAfter)
    (present : before.Has ref)
    (alike : Alike before other)
    (resolved_eq : otherAfter.resolved = after.resolved) :
    Alike after otherAfter := by
  refine ⟨?_, resolved_eq⟩
  have same := alike.sameModels
  have otherPresent := alike.has present
  have parents_eq := same.parents_eq present
  rcases asking.kept_or_attached present with ⟨kept, linked⟩ | ⟨resolved, result_eq, attached⟩
  · rcases otherAsking.kept_or_attached otherPresent with ⟨otherKept, _⟩ |
      ⟨otherResolved, otherResult_eq, otherAttached⟩
    · exact kept.symm.trans (same.trans otherKept)
    · obtain ⟨ancestor, _, known⟩ := linked _ otherResult_eq
      rw [← parents_eq, otherAttached.unknown] at known
      cases known
  · rcases otherAsking.kept_or_attached otherPresent with ⟨_, otherLinked⟩ |
      ⟨otherResolved, otherResult_eq, otherAttached⟩
    · obtain ⟨ancestor, _, known⟩ := otherLinked _ result_eq
      rw [parents_eq, attached.unknown] at known
      cases known
    · have recorded := otherAttached.recorded
      rw [same.subject_eq present, resolved_eq, attached.recorded] at recorded
      obtain rfl := Option.some.inj recorded
      refine ⟨?_, ?_⟩
      · rw [attached.keys_eq, otherAttached.keys_eq, same.keys_eq]
        simp only [same.has_iff]
      · intro added addedPresent
        by_cases was : before.Has added
        · rw [otherAttached.model_eq added (alike.has was), attached.model_eq added was,
            same.model_eq added was]
        · obtain rfl := ((attached.has_iff added).mp addedPresent).resolve_left was
          have otherNew := otherAttached.model_new
            (fun found => was ((same.has_iff _).mp found))
          rw [otherNew, attached.model_new was]
          unfold Model.ofParent
          rw [same.lineage_eq present]

/-- A question is answered alike in states that are alike. -/
theorem Asking.congr
    (asking : Asking resolver ref importPath name before result after)
    (sound : before.Sound)
    (otherSound : other.Sound)
    (present : before.Has ref)
    (alike : Alike before other) :
    ∃ otherAfter, Asking resolver ref importPath name other result otherAfter ∧
      Alike after otherAfter := by
  have same := alike.sameModels
  have filePath_eq : (other.model ref).subject.filePath =
      (before.model ref).subject.filePath := by
    rw [same.subject_eq present]
  have lineage_eq := same.lineage_eq present
  have unlinked (unknown : Entries.get? (⟨importPath, name⟩ : ParentKey)
      (before.model ref).parents = none) :
      Entries.get? (⟨importPath, name⟩ : ParentKey) (other.model ref).parents = none := by
    rw [same.parents_eq present]
    exact unknown
  suffices found : ∃ otherAfter, Asking resolver ref importPath name other result otherAfter ∧
      otherAfter.resolved = after.resolved by
    obtain ⟨otherAfter, otherAsking, resolved_eq⟩ := found
    exact ⟨otherAfter, otherAsking, asking.alike otherAsking present alike resolved_eq⟩
  cases asking with
  | linked known =>
      rw [← same.parents_eq present] at known
      exact ⟨other, .linked known, alike.resolved_eq⟩
  | unresolved unknown resolving =>
      obtain ⟨otherAfter, otherResolving, afterAlike⟩ := resolving.congr alike
      rw [← filePath_eq] at otherResolving
      exact ⟨otherAfter, .unresolved (unlinked unknown) otherResolving, afterAlike.resolved_eq⟩
  | circular unknown resolving inLineage =>
      obtain ⟨otherAfter, otherResolving, afterAlike⟩ := resolving.congr alike
      rw [← filePath_eq] at otherResolving
      rw [← lineage_eq] at inLineage ⊢
      exact ⟨otherAfter, .circular (unlinked unknown) otherResolving inLineage,
        afterAlike.resolved_eq⟩
  | @unnamed resolved middle after failure unknown resolving notInLineage absent fails =>
      obtain ⟨otherMiddle, otherResolving, middleAlike⟩ := resolving.congr alike
      have middlePresent := (resolving.sameModels.has_iff ref).mpr present
      obtain ⟨otherAfter, otherFails⟩ := (resolving.sound sound).derive_name_congr
        (otherResolving.sound otherSound) middlePresent middleAlike fails
      have before_eq := (Alike.of_derive middlePresent fails).resolved_eq
      have other_eq := (Alike.of_derive (middleAlike.has middlePresent) otherFails).resolved_eq
      rw [← filePath_eq] at otherResolving
      rw [← lineage_eq] at notInLineage
      refine ⟨otherAfter, .unnamed (unlinked unknown) otherResolving notInLineage
        (fun found => absent ((same.has_iff _).mp found)) otherFails, ?_⟩
      rw [other_eq, before_eq, middleAlike.resolved_eq]
  | @shared resolved middle unknown resolving notInLineage shared =>
      obtain ⟨otherMiddle, otherResolving, middleAlike⟩ := resolving.congr alike
      rw [← filePath_eq] at otherResolving
      rw [← lineage_eq] at notInLineage
      refine ⟨_, .shared (unlinked unknown) otherResolving notInLineage (alike.has shared), ?_⟩
      cases ref <;> exact middleAlike.resolved_eq
  | @built resolved middle named child unknown resolving notInLineage absent derives =>
      obtain ⟨otherMiddle, otherResolving, middleAlike⟩ := resolving.congr alike
      have middlePresent := (resolving.sameModels.has_iff ref).mpr present
      obtain ⟨otherNamed, otherDerives⟩ := (resolving.sound sound).derive_name_congr
        (otherResolving.sound otherSound) middlePresent middleAlike derives
      have before_eq := (Alike.of_derive middlePresent derives).resolved_eq
      have other_eq :=
        (Alike.of_derive (middleAlike.has middlePresent) otherDerives).resolved_eq
      rw [← filePath_eq] at otherResolving
      rw [← lineage_eq] at notInLineage
      refine ⟨_, .built (unlinked unknown) otherResolving notInLineage
        (fun found => absent ((same.has_iff _).mp found)) otherDerives, ?_⟩
      have named_eq : otherNamed.resolved = named.resolved := by
        rw [other_eq, before_eq, middleAlike.resolved_eq]
      cases ref <;> exact named_eq

/-- A model returns a parent that it has returned before. -/
theorem parent_again
    {parentRef : ModelRef}
    (present : before.Has ref)
    (returned : outcome (parent resolver ref importPath name) before = (.ok parentRef, after))
    (covers : Covers after other) :
    outcome (parent resolver ref importPath name) other = (.ok parentRef, other) := by
  obtain ⟨ancestor, rfl, linked⟩ := linked_of_parent present returned
  have grows := grows_parent resolver importPath name present
  rw [returned] at grows
  have stays := Entries.get?_of_grown
    (covers.model_grows (grows.has present)).parents_grow linked
  have asking : Asking resolver ref importPath name other (.ok (.ancestor ancestor)) other :=
    .linked stays
  exact asking.outcome_eq

/-- A model refuses a parent that it has refused before, if nothing has been added
since. -/
theorem parent_refused_again
    {failure : Failure}
    (sound : before.Sound)
    (otherSound : other.Sound)
    (present : before.Has ref)
    (refused : outcome (parent resolver ref importPath name) before = (.error failure, after))
    (alike : Alike after other) :
    ∃ otherAfter, outcome (parent resolver ref importPath name) other =
      (.error failure, otherAfter) ∧ Alike other otherAfter := by
  have asking := asking_parent resolver ref importPath name before
  have kept := sameModels_of_parent_error present refused
  rw [refused] at asking
  have same := kept.trans alike.sameModels
  have filePath_eq : (other.model ref).subject.filePath =
      (before.model ref).subject.filePath := by
    rw [same.subject_eq present]
  have lineage_eq := same.lineage_eq present
  have unlinked (unknown : Entries.get? (⟨importPath, name⟩ : ParentKey)
      (before.model ref).parents = none) :
      Entries.get? (⟨importPath, name⟩ : ParentKey) (other.model ref).parents = none := by
    rw [same.parents_eq present]
    exact unknown
  suffices found : ∃ otherAfter, Asking resolver ref importPath name other (.error failure)
      otherAfter ∧ Alike other otherAfter by
    obtain ⟨otherAfter, otherAsking, otherAlike⟩ := found
    exact ⟨otherAfter, otherAsking.outcome_eq, otherAlike⟩
  cases asking with
  | unresolved unknown resolving =>
      obtain ⟨otherAfter, otherResolving, otherAlike⟩ := resolving.again alike
      rw [← filePath_eq] at otherResolving
      exact ⟨otherAfter, .unresolved (unlinked unknown) otherResolving, otherAlike⟩
  | circular unknown resolving inLineage =>
      obtain ⟨otherAfter, otherResolving, otherAlike⟩ := resolving.again alike
      rw [← filePath_eq] at otherResolving
      rw [← lineage_eq] at inLineage ⊢
      exact ⟨otherAfter, .circular (unlinked unknown) otherResolving inLineage, otherAlike⟩
  | @unnamed resolved middle after failure unknown resolving notInLineage absent fails =>
      have middlePresent := (resolving.sameModels.has_iff ref).mpr present
      have middleAlike := (Alike.of_derive middlePresent fails).trans alike
      obtain ⟨otherMiddle, otherResolving, otherAlike⟩ := resolving.again middleAlike
      obtain ⟨otherAfter, otherFails⟩ := (resolving.sound sound).derive_name_congr
        (otherResolving.sound otherSound) middlePresent (middleAlike.trans otherAlike) fails
      have otherPresent := (middleAlike.trans otherAlike).has middlePresent
      rw [← filePath_eq] at otherResolving
      rw [← lineage_eq] at notInLineage
      exact ⟨otherAfter, .unnamed (unlinked unknown) otherResolving notInLineage
        (fun found => absent ((same.has_iff _).mp found)) otherFails,
        otherAlike.trans (.of_derive otherPresent otherFails)⟩

end Asking

end Traversal
end ContractDoc
