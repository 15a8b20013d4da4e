import ContractDoc.Proofs.Traversal.Step

/-!
# Traversals only grow

Nothing that a traversal has built, recorded or linked is changed or taken back
later.  A model that asks for a parent either keeps all models as they are, or is
attached to that parent by one more link.
-/

namespace ContractDoc

/-- A model grows if it stays the model of the same contract, behind the same
lineage, and only gets links to more parents. -/
structure Model.Grows (before after : Model) : Prop where
  subject_eq : after.subject = before.subject
  mergesParents_eq : after.mergesParents = before.mergesParents
  lineage_eq : after.lineage = before.lineage
  parents_grow : before.parents <+: after.parents

namespace Traversal

/-- A traversal grows if its models do, and if models, imports and calls are only
added to those that are there. -/
structure Grows (before after : Traversal) : Prop where
  keys_grow : Entries.keys before.ancestors <+: Entries.keys after.ancestors
  resolved_grow : before.resolved <+: after.resolved
  calls_grow : before.calls <+: after.calls
  model_grows : ∀ ref, before.Has ref → (before.model ref).Grows (after.model ref)

namespace Grows

variable {before middle after : Traversal}

/-- Models that are there remain there. -/
theorem has (grows : Grows before after) {ref : ModelRef} (present : before.Has ref) :
    after.Has ref := by
  cases ref with
  | root => exact has_root after
  | ancestor key =>
      rw [has_ancestor_iff] at present ⊢
      exact grows.keys_grow.subset present

theorem subject_eq (grows : Grows before after) {ref : ModelRef}
    (present : before.Has ref) :
    (after.model ref).subject = (before.model ref).subject :=
  (grows.model_grows ref present).subject_eq

theorem lineage_eq (grows : Grows before after) {ref : ModelRef}
    (present : before.Has ref) :
    (after.model ref).lineage = (before.model ref).lineage :=
  (grows.model_grows ref present).lineage_eq

/-- Links that are there remain there. -/
theorem get?_parents (grows : Grows before after) {ref : ModelRef}
    (present : before.Has ref)
    {key : ParentKey} {ancestor : AncestorKey}
    (linked : Entries.get? key (before.model ref).parents = some ancestor) :
    Entries.get? key (after.model ref).parents = some ancestor :=
  Entries.get?_of_grown (grows.model_grows ref present).parents_grow linked

/-- Imports that are on record remain on record. -/
theorem get?_resolved (grows : Grows before after)
    {key : ImportKey} {resolved : ResolvedImport}
    (found : Entries.get? key before.resolved = some resolved) :
    Entries.get? key after.resolved = some resolved :=
  Entries.get?_of_grown grows.resolved_grow found

/-- A traversal that keeps its models grows if its records do. -/
theorem of_sameModels
    (same : SameModels before after)
    (resolved_grow : before.resolved <+: after.resolved)
    (calls_grow : before.calls <+: after.calls) :
    Grows before after where
  keys_grow := same.keys_eq ▸ List.prefix_rfl
  resolved_grow := resolved_grow
  calls_grow := calls_grow
  model_grows := by
    intro ref present
    exact ⟨same.subject_eq present, same.mergesParents_eq present,
      same.lineage_eq present, same.parents_eq present ▸ List.prefix_rfl⟩

theorem refl (state : Traversal) : Grows state state :=
  of_sameModels (.refl state) List.prefix_rfl List.prefix_rfl

theorem trans
    (first : Grows before middle)
    (second : Grows middle after) :
    Grows before after where
  keys_grow := first.keys_grow.trans second.keys_grow
  resolved_grow := first.resolved_grow.trans second.resolved_grow
  calls_grow := first.calls_grow.trans second.calls_grow
  model_grows := by
    intro ref present
    have early := first.model_grows ref present
    have late := second.model_grows ref (first.has present)
    exact ⟨late.subject_eq.trans early.subject_eq,
      late.mergesParents_eq.trans early.mergesParents_eq,
      late.lineage_eq.trans early.lineage_eq,
      early.parents_grow.trans late.parents_grow⟩

end Grows

/-- A derivation makes a traversal grow. -/
theorem grows_derive
    {α : Type}
    {before : Traversal}
    {ref : ModelRef}
    (present : before.Has ref)
    (value : Subject → Derive α) :
    Grows before (outcome (derive ref value) before).2 :=
  .of_sameModels (sameModels_derive present value)
    (resolved_derive ref value before ▸ List.prefix_rfl)
    (calls_derive ref value before ▸ List.prefix_rfl)

/-- Resolving an import makes a traversal grow. -/
theorem Resolving.grows
    {resolver : ImportResolver}
    {importPath : String}
    {importer : Option String}
    {before after : Traversal}
    {result : Except Failure ResolvedImport}
    (resolving : Resolving resolver importPath importer before result after) :
    Grows before after := by
  refine .of_sameModels resolving.sameModels resolving.resolved_grow ?_
  cases resolving with
  | known found => exact List.prefix_rfl
  | answered unknown answer => exact List.prefix_append ..
  | failed unknown answer => exact List.prefix_append ..

/-! ## Building and linking -/

section Building

variable
  {before : Traversal}
  {name : String}
  {resolved : ResolvedImport}

/-- Building a parent adds its key to the registry. -/
theorem keys_build
    (absent : ¬before.Has (.ancestor ⟨resolved.path, name⟩))
    (ref : ModelRef) :
    Entries.keys (before.build ref name resolved).ancestors =
      Entries.keys before.ancestors ++ [⟨resolved.path, name⟩] := by
  have unknown := Option.not_isSome_iff_eq_none.mp absent
  unfold build
  rw [Entries.insert_of_get?_eq_none _ unknown]
  simp [Entries.keys]

/-- Building a parent adds one model to those that are there. -/
theorem has_build
    (absent : ¬before.Has (.ancestor ⟨resolved.path, name⟩))
    (ref other : ModelRef) :
    (before.build ref name resolved).Has other ↔
      before.Has other ∨ other = .ancestor ⟨resolved.path, name⟩ := by
  cases other with
  | root => simp
  | ancestor key =>
      rw [has_ancestor_iff, has_ancestor_iff, keys_build absent]
      simp

/-- Building a parent changes no model that is there. -/
theorem model_build
    (absent : ¬before.Has (.ancestor ⟨resolved.path, name⟩))
    (ref : ModelRef)
    {other : ModelRef}
    (present : before.Has other) :
    (before.build ref name resolved).model other = before.model other := by
  cases other with
  | root => rfl
  | ancestor key =>
      have different : key ≠ ⟨resolved.path, name⟩ := by
        intro same
        exact absent (same ▸ present)
      simp [build, Traversal.model, Entries.get?_insert_of_ne different]

/-- The model of a parent starts behind the lineage of its child. -/
theorem model_build_self (before : Traversal) (ref : ModelRef) :
    (before.build ref name resolved).model (.ancestor ⟨resolved.path, name⟩) =
      (before.model ref).ofParent name resolved := by
  simp [build, Traversal.model, Entries.get?_insert_self]

end Building

/-- Linking keeps the registry's keys. -/
theorem keys_link
    {before : Traversal}
    {ref : ModelRef}
    (present : before.Has ref)
    (key : ParentKey)
    (ancestor : AncestorKey) :
    Entries.keys (before.link ref key ancestor).ancestors =
      Entries.keys before.ancestors :=
  keys_setModel present _

/-- Linking adds one link to one model. -/
theorem model_link
    {before : Traversal}
    {ref : ModelRef}
    {key : ParentKey}
    (unknown : Entries.get? key (before.model ref).parents = none)
    (ancestor : AncestorKey)
    {other : ModelRef}
    (present : before.Has other) :
    (before.link ref key ancestor).model other =
      { before.model other with
        parents := if other = ref then (before.model other).parents ++ [(key, ancestor)]
          else (before.model other).parents } := by
  unfold link
  rw [model_setModel present]
  by_cases same : other = ref
  · subst same
    rw [if_pos rfl, if_pos rfl, Entries.insert_of_get?_eq_none ancestor unknown]
  · rw [if_neg same, if_neg same]

/-! ## Attaching a parent -/

/-- The parent `name` of a model, whose import has been resolved, has been
attached to it.  It is the only model that may be new, and the link to it is the
only new link. -/
structure Attached
    (before : Traversal)
    (ref : ModelRef)
    (importPath name : String)
    (resolved : ResolvedImport)
    (after : Traversal) : Prop where
  unknown : Entries.get? ⟨importPath, name⟩ (before.model ref).parents = none
  notInLineage : resolved.path ∉ (before.model ref).lineage
  recorded : Entries.get? (.ofImport importPath (before.model ref).subject.filePath)
    after.resolved = some resolved
  keys_eq : Entries.keys after.ancestors =
    if before.Has (.ancestor ⟨resolved.path, name⟩) then Entries.keys before.ancestors
    else Entries.keys before.ancestors ++ [⟨resolved.path, name⟩]
  model_eq : ∀ other, before.Has other →
    after.model other =
      { before.model other with
        cache := (after.model other).cache
        parents := if other = ref
          then (before.model other).parents ++ [(⟨importPath, name⟩, ⟨resolved.path, name⟩)]
          else (before.model other).parents }
  model_new : ¬before.Has (.ancestor ⟨resolved.path, name⟩) →
    after.model (.ancestor ⟨resolved.path, name⟩) = (before.model ref).ofParent name resolved

section Attaching

variable
  {before ready : Traversal}
  {ref : ModelRef}
  {importPath name : String}
  {resolved : ResolvedImport}

/-- A parent that has been built is attached by a link. -/
theorem attached_link
    (same : SameModels before ready)
    (present : before.Has ref)
    (shared : before.Has (.ancestor ⟨resolved.path, name⟩))
    (unknown : Entries.get? ⟨importPath, name⟩ (before.model ref).parents = none)
    (notInLineage : resolved.path ∉ (before.model ref).lineage)
    (recorded : Entries.get? (.ofImport importPath (before.model ref).subject.filePath)
      ready.resolved = some resolved) :
    Attached before ref importPath name resolved
      (ready.link ref ⟨importPath, name⟩ ⟨resolved.path, name⟩) where
  unknown := unknown
  notInLineage := notInLineage
  recorded := by
    cases ref <;> exact recorded
  keys_eq := by
    rw [if_pos shared, keys_link ((same.has_iff ref).mpr present), same.keys_eq]
  model_eq := by
    intro other otherPresent
    rw [← same.parents_eq present] at unknown
    rw [model_link unknown _ ((same.has_iff other).mpr otherPresent),
      same.model_eq other otherPresent]
  model_new := fun absent => absurd shared absent

/-- A parent that has not been built is built and then attached by a link. -/
theorem attached_build_link
    (same : SameModels before ready)
    (present : before.Has ref)
    (absent : ¬before.Has (.ancestor ⟨resolved.path, name⟩))
    (unknown : Entries.get? ⟨importPath, name⟩ (before.model ref).parents = none)
    (notInLineage : resolved.path ∉ (before.model ref).lineage)
    (recorded : Entries.get? (.ofImport importPath (before.model ref).subject.filePath)
      ready.resolved = some resolved) :
    Attached before ref importPath name resolved
      ((ready.build ref name resolved).link ref ⟨importPath, name⟩
        ⟨resolved.path, name⟩) := by
  have stillAbsent : ¬ready.Has (.ancestor ⟨resolved.path, name⟩) :=
    fun built => absent ((same.has_iff _).mp built)
  have remains : ∀ {other}, before.Has other → (ready.build ref name resolved).Has other := by
    intro other otherPresent
    exact (has_build stillAbsent ref other).mpr (.inl ((same.has_iff other).mpr otherPresent))
  have stillUnknown : Entries.get? ⟨importPath, name⟩
      ((ready.build ref name resolved).model ref).parents = none := by
    rw [model_build stillAbsent ref ((same.has_iff ref).mpr present),
      same.parents_eq present]
    exact unknown
  refine ⟨unknown, notInLineage, ?_, ?_, ?_, ?_⟩
  · cases ref <;> exact recorded
  · rw [if_neg absent, keys_link (remains present), keys_build stillAbsent, same.keys_eq]
  · intro other otherPresent
    rw [model_link stillUnknown _ (remains otherPresent),
      model_build stillAbsent ref ((same.has_iff other).mpr otherPresent),
      same.model_eq other otherPresent]
  · intro _
    have different : ModelRef.ancestor ⟨resolved.path, name⟩ ≠ ref := by
      intro equal
      exact absent (equal ▸ present)
    have isNew := (has_build stillAbsent ref _).mpr (.inr rfl)
    rw [model_link stillUnknown _ isNew, if_neg different, model_build_self]
    unfold Model.ofParent
    rw [same.lineage_eq present]

end Attaching

namespace Attached

variable
  {before after : Traversal}
  {ref : ModelRef}
  {importPath name : String}
  {resolved : ResolvedImport}

/-- All models but the attached one have been there before. -/
theorem has_iff
    (attached : Attached before ref importPath name resolved after)
    (other : ModelRef) :
    after.Has other ↔ before.Has other ∨ other = .ancestor ⟨resolved.path, name⟩ := by
  cases other with
  | root => simp
  | ancestor key =>
      rw [has_ancestor_iff, has_ancestor_iff, attached.keys_eq]
      split
      · rename_i shared
        rw [has_ancestor_iff] at shared
        constructor
        · exact Or.inl
        · rintro (old | new)
          · exact old
          · rw [ModelRef.ancestor.inj new]
            exact shared
      · simp

/-- The parents of the models that have been there before. -/
theorem parents_eq
    (attached : Attached before ref importPath name resolved after)
    {other : ModelRef}
    (present : before.Has other) :
    (after.model other).parents =
      if other = ref
        then (before.model other).parents ++ [(⟨importPath, name⟩, ⟨resolved.path, name⟩)]
        else (before.model other).parents := by
  rw [attached.model_eq other present]

end Attached

/-- What asking a model for a parent does to the models.  They stay as they are, and
the parent has been linked before if it is returned; or the parent that is returned
has been attached. -/
theorem Asking.kept_or_attached
    {resolver : ImportResolver}
    {ref : ModelRef}
    {importPath name : String}
    {before after : Traversal}
    {result : Except Failure ModelRef}
    (present : before.Has ref)
    (asking : Asking resolver ref importPath name before result after) :
    (SameModels before after ∧ ∀ parentRef, result = .ok parentRef →
        ∃ ancestor, parentRef = .ancestor ancestor ∧
          Entries.get? ⟨importPath, name⟩ (before.model ref).parents = some ancestor) ∨
      ∃ resolved, result = .ok (.ancestor ⟨resolved.path, name⟩) ∧
        Attached before ref importPath name resolved after := by
  cases asking with
  | @linked ancestor known =>
      refine .inl ⟨.refl before, ?_⟩
      rintro _ ⟨⟩
      exact ⟨ancestor, rfl, known⟩
  | unresolved unknown resolving => exact .inl ⟨resolving.sameModels, nofun⟩
  | circular unknown resolving inLineage => exact .inl ⟨resolving.sameModels, nofun⟩
  | unnamed unknown resolving notInLineage absent fails =>
      have same := resolving.sameModels
      have derived := sameModels_derive ((same.has_iff ref).mpr present) Subject.name
      rw [fails] at derived
      exact .inl ⟨same.trans derived, nofun⟩
  | shared unknown resolving notInLineage shared =>
      exact .inr ⟨_, rfl, attached_link resolving.sameModels present shared unknown
        notInLineage resolving.get?_resolved⟩
  | @built resolved middle named child unknown resolving notInLineage absent derives =>
      have same := resolving.sameModels
      have derived := sameModels_derive ((same.has_iff ref).mpr present) Subject.name
      have recorded := resolved_derive ref Subject.name middle
      rw [derives] at derived recorded
      have ready : SameModels before
          (named.notify [.loadingParent child name resolved.path]) :=
        (same.trans derived).trans (.of_eq rfl rfl)
      refine .inr ⟨resolved, rfl,
        attached_build_link ready present absent unknown notInLineage ?_⟩
      change Entries.get? _ named.resolved = some resolved
      rw [recorded]
      exact resolving.get?_resolved

/-- A question that fails leaves the registry and all links as they were. -/
theorem sameModels_of_parent_error
    {resolver : ImportResolver}
    {before after : Traversal}
    {ref : ModelRef}
    {importPath name : String}
    {failure : Failure}
    (present : before.Has ref)
    (fails : outcome (parent resolver ref importPath name) before = (.error failure, after)) :
    SameModels before after := by
  have asking := asking_parent resolver ref importPath name before
  rw [fails] at asking
  rcases asking.kept_or_attached present with ⟨same, _⟩ | ⟨resolved, result_eq, _⟩
  · exact same
  · cases result_eq

/-- A model is linked to the parent that it returns. -/
theorem linked_of_parent
    {resolver : ImportResolver}
    {ref parentRef : ModelRef}
    {importPath name : String}
    {before after : Traversal}
    (present : before.Has ref)
    (returns : outcome (parent resolver ref importPath name) before =
      (.ok parentRef, after)) :
    ∃ ancestor, parentRef = .ancestor ancestor ∧
      Entries.get? ⟨importPath, name⟩ (after.model ref).parents = some ancestor := by
  have asking := asking_parent resolver ref importPath name before
  rw [returns] at asking
  rcases asking.kept_or_attached present with ⟨same, linked⟩ | ⟨resolved, result_eq, attached⟩
  · obtain ⟨ancestor, parent_eq, known⟩ := linked parentRef rfl
    refine ⟨ancestor, parent_eq, ?_⟩
    rw [same.parents_eq present]
    exact known
  · refine ⟨⟨resolved.path, name⟩, Except.ok.inj result_eq, ?_⟩
    rw [attached.parents_eq present, if_pos rfl,
      ← Entries.insert_of_get?_eq_none _ attached.unknown]
    exact Entries.get?_insert_self ..

/-- What asking a model for a parent does to the record of imports: nothing, or
what resolving the import of the parent does. -/
theorem Asking.records
    {resolver : ImportResolver}
    {ref : ModelRef}
    {importPath name : String}
    {before after : Traversal}
    {result : Except Failure ModelRef}
    (asking : Asking resolver ref importPath name before result after) :
    ∃ middle,
      (middle = before ∨ ∃ resolution,
        Resolving resolver importPath (before.model ref).subject.filePath before
          resolution middle) ∧
        after.resolved = middle.resolved ∧ after.calls = middle.calls := by
  cases asking with
  | linked known => exact ⟨before, .inl rfl, rfl, rfl⟩
  | unresolved unknown resolving => exact ⟨after, .inr ⟨_, resolving⟩, rfl, rfl⟩
  | circular unknown resolving inLineage => exact ⟨after, .inr ⟨_, resolving⟩, rfl, rfl⟩
  | @unnamed resolved middle after failure unknown resolving notInLineage absent fails =>
      have resolved_eq := resolved_derive ref Subject.name middle
      have calls_eq := calls_derive ref Subject.name middle
      rw [fails] at resolved_eq calls_eq
      exact ⟨middle, .inr ⟨_, resolving⟩, resolved_eq, calls_eq⟩
  | @shared resolved middle unknown resolving notInLineage shared =>
      exact ⟨middle, .inr ⟨_, resolving⟩, by cases ref <;> rfl, by cases ref <;> rfl⟩
  | @built resolved middle named child unknown resolving notInLineage absent derives =>
      have resolved_eq := resolved_derive ref Subject.name middle
      have calls_eq := calls_derive ref Subject.name middle
      rw [derives] at resolved_eq calls_eq
      refine ⟨middle, .inr ⟨_, resolving⟩, ?_, ?_⟩
      · cases ref <;> exact resolved_eq
      · cases ref <;> exact calls_eq

/-- Asking for a parent makes a traversal grow, whether it succeeds or fails. -/
theorem grows_parent
    (resolver : ImportResolver)
    {ref : ModelRef}
    (importPath name : String)
    {before : Traversal}
    (present : before.Has ref) :
    Grows before (outcome (parent resolver ref importPath name) before).2 := by
  have asking := asking_parent resolver ref importPath name before
  generalize outcome (parent resolver ref importPath name) before = ended at asking
  obtain ⟨result, after⟩ := ended
  obtain ⟨middle, resolves, resolved_eq, calls_eq⟩ := asking.records
  have recorded : Grows before middle := by
    rcases resolves with rfl | ⟨resolution, resolving⟩
    · exact .refl middle
    · exact resolving.grows
  have resolved_grow : before.resolved <+: after.resolved :=
    resolved_eq ▸ recorded.resolved_grow
  have calls_grow : before.calls <+: after.calls :=
    calls_eq ▸ recorded.calls_grow
  rcases asking.kept_or_attached present with ⟨same, _⟩ | ⟨resolved, _, attached⟩
  · exact .of_sameModels same resolved_grow calls_grow
  · refine ⟨?_, resolved_grow, calls_grow, ?_⟩
    · rw [attached.keys_eq]
      split
      · exact List.prefix_rfl
      · exact List.prefix_append ..
    · intro other otherPresent
      rw [attached.model_eq other otherPresent]
      refine ⟨rfl, rfl, rfl, ?_⟩
      split
      · exact List.prefix_append ..
      · exact List.prefix_rfl

end Traversal
end ContractDoc
