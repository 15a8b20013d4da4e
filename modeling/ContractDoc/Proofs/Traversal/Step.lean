import ContractDoc.Proofs.Derivation
import ContractDoc.Proofs.Entries

/-!
# What a step of a traversal can do

A traversal changes in three ways only.  A derivation changes what one model
knows.  Resolving an import changes the record of imports.  Asking a model for a
parent may, in addition, link the model to its parent, which is built first
unless there is one.  The cases of each step are listed here once; what is true
of all states of a traversal follows from them.
-/

namespace ContractDoc
namespace Traversal

variable {α : Type}

/-- A model is there if it is the root, or if it has been built. -/
def Has (traversal : Traversal) : ModelRef → Prop
  | .root => True
  | .ancestor key => (Entries.get? key traversal.ancestors).isSome

instance (traversal : Traversal) : DecidablePred traversal.Has
  | .root => inferInstanceAs (Decidable True)
  | .ancestor key => inferInstanceAs (Decidable ((Entries.get? key _).isSome = true))

@[simp] theorem has_root (traversal : Traversal) : traversal.Has .root := trivial

/-- The ancestors that are there are the keys of the registry. -/
theorem has_ancestor_iff {traversal : Traversal} {key : AncestorKey} :
    traversal.Has (.ancestor key) ↔ key ∈ Entries.keys traversal.ancestors := by
  rw [Entries.mem_keys_iff]
  rfl

/-- Only the key of an ancestor decides whether it is there. -/
theorem has_iff_of_keys_eq
    {before after : Traversal}
    (keys_eq : Entries.keys after.ancestors = Entries.keys before.ancestors)
    (ref : ModelRef) :
    after.Has ref ↔ before.Has ref := by
  cases ref with
  | root => simp
  | ancestor key => rw [has_ancestor_iff, has_ancestor_iff, keys_eq]

/-! ## Replacing a model -/

/-- Replacing a model that is there keeps the registry's keys. -/
theorem keys_setModel
    {traversal : Traversal}
    {ref : ModelRef}
    (present : traversal.Has ref)
    (model : Model) :
    Entries.keys (traversal.setModel ref model).ancestors =
      Entries.keys traversal.ancestors := by
  cases ref with
  | root => rfl
  | ancestor key => exact Entries.keys_insert_of_isSome model present

/-- Replacing a model changes that model and no other one. -/
theorem model_setModel
    {traversal : Traversal}
    {other : ModelRef}
    (present : traversal.Has other)
    (ref : ModelRef)
    (model : Model) :
    (traversal.setModel ref model).model other =
      if other = ref then model else traversal.model other := by
  cases ref with
  | root =>
      cases other with
      | root => rfl
      | ancestor key =>
          obtain ⟨found, known⟩ := Option.isSome_iff_exists.mp present
          have different : ModelRef.ancestor key ≠ .root := nofun
          rw [if_neg different]
          simp [setModel, Traversal.model, known]
  | ancestor replaced =>
      cases other with
      | root => rfl
      | ancestor key =>
          by_cases same : key = replaced
          · subst same
            simp [setModel, Traversal.model, Entries.get?_insert_self]
          · have different : ModelRef.ancestor key ≠ .ancestor replaced := by
              simpa using same
            rw [if_neg different]
            simp [setModel, Traversal.model, Entries.get?_insert_of_ne same]

/-! ## Traversals with the same models -/

/-- Two states have the same models if they differ only in what the models know,
in the record of imports and in the notices. -/
structure SameModels (before after : Traversal) : Prop where
  keys_eq : Entries.keys after.ancestors = Entries.keys before.ancestors
  model_eq : ∀ ref, before.Has ref →
    after.model ref = { before.model ref with cache := (after.model ref).cache }

namespace SameModels

variable {before middle after : Traversal}

theorem has_iff (same : SameModels before after) (ref : ModelRef) :
    after.Has ref ↔ before.Has ref :=
  has_iff_of_keys_eq same.keys_eq ref

/-- States with the same root and the same registry have the same models. -/
theorem of_eq
    (root_eq : after.root = before.root)
    (ancestors_eq : after.ancestors = before.ancestors) :
    SameModels before after := by
  refine ⟨by rw [ancestors_eq], ?_⟩
  intro ref present
  have model_eq : after.model ref = before.model ref := by
    cases ref with
    | root => exact root_eq
    | ancestor key => simp [Traversal.model, root_eq, ancestors_eq]
  rw [model_eq]

theorem refl (state : Traversal) : SameModels state state :=
  of_eq rfl rfl

theorem trans
    (first : SameModels before middle)
    (second : SameModels middle after) :
    SameModels before after := by
  refine ⟨second.keys_eq.trans first.keys_eq, ?_⟩
  intro ref present
  rw [second.model_eq ref ((first.has_iff ref).mpr present), first.model_eq ref present]

theorem subject_eq (same : SameModels before after) {ref : ModelRef}
    (present : before.Has ref) :
    (after.model ref).subject = (before.model ref).subject := by
  rw [same.model_eq ref present]

theorem lineage_eq (same : SameModels before after) {ref : ModelRef}
    (present : before.Has ref) :
    (after.model ref).lineage = (before.model ref).lineage := by
  rw [same.model_eq ref present]

theorem mergesParents_eq (same : SameModels before after) {ref : ModelRef}
    (present : before.Has ref) :
    (after.model ref).mergesParents = (before.model ref).mergesParents := by
  rw [same.model_eq ref present]

theorem parents_eq (same : SameModels before after) {ref : ModelRef}
    (present : before.Has ref) :
    (after.model ref).parents = (before.model ref).parents := by
  rw [same.model_eq ref present]

end SameModels

/-! ## Deriving a value -/

/-- A derivation runs on the cache of its model, which is all that it changes
beside the notices. -/
theorem outcome_derive
    (ref : ModelRef)
    (value : Subject → Derive α)
    (before : Traversal) :
    let model := before.model ref
    let ran := outcome (value model.subject) ⟨model.cache, []⟩
    outcome (derive ref value) before =
      (ran.1, { before.setModel ref { model with cache := ran.2.cache } with
        notices := before.notices ++ ran.2.notices }) := by
  cases ref <;> rfl

/-- What a model knows does not count among the differences between models. -/
theorem sameModels_setModel
    {before : Traversal}
    {ref : ModelRef}
    (present : before.Has ref)
    (cache : Cache Derivation.Result) :
    SameModels before (before.setModel ref { before.model ref with cache }) := by
  refine ⟨keys_setModel present _, ?_⟩
  intro other otherPresent
  rw [model_setModel otherPresent]
  by_cases same : other = ref
  · subst same
    rw [if_pos rfl]
  · rw [if_neg same]

/-- A derivation leaves all models as they are but for what they know. -/
theorem sameModels_derive
    {before : Traversal}
    {ref : ModelRef}
    (present : before.Has ref)
    (value : Subject → Derive α) :
    SameModels before (outcome (derive ref value) before).2 := by
  rw [outcome_derive]
  exact (sameModels_setModel present _).trans (SameModels.of_eq rfl rfl)

@[simp] theorem resolved_derive
    (ref : ModelRef)
    (value : Subject → Derive α)
    (before : Traversal) :
    (outcome (derive ref value) before).2.resolved = before.resolved := by
  rw [outcome_derive]
  cases ref <;> rfl

@[simp] theorem calls_derive
    (ref : ModelRef)
    (value : Subject → Derive α)
    (before : Traversal) :
    (outcome (derive ref value) before).2.calls = before.calls := by
  rw [outcome_derive]
  cases ref <;> rfl

/-! ## Resolving an import -/

/-- The state after the resolver has been asked for an import. -/
def afterCall
    (before : Traversal)
    (resolver : ImportResolver)
    (importPath : String)
    (importer : Option String) : Traversal :=
  { before with
    calls := before.calls ++ [(importPath, importer)]
    notices := before.notices ++ (resolver importPath importer).notices }

/-- The state in which an import has been recorded. -/
def record
    (before : Traversal)
    (key : ImportKey)
    (resolved : ResolvedImport) : Traversal :=
  { before with resolved := Entries.insert key resolved before.resolved }

/-- The cases of resolving an import: it is known, or the resolver is asked for
it and answers, or fails. -/
inductive Resolving
    (resolver : ImportResolver)
    (importPath : String)
    (importer : Option String)
    (before : Traversal) : Except Failure ResolvedImport → Traversal → Prop
  | known {resolved : ResolvedImport}
      (found : Entries.get? (.ofImport importPath importer) before.resolved = some resolved) :
      Resolving resolver importPath importer before (.ok resolved) before
  | answered {resolved : ResolvedImport}
      (unknown : Entries.get? (.ofImport importPath importer) before.resolved = none)
      (answer : (resolver importPath importer).result = .ok resolved) :
      Resolving resolver importPath importer before (.ok resolved)
        ((before.afterCall resolver importPath importer).record
          (.ofImport importPath importer) resolved)
  | failed {failure : Failure}
      (unknown : Entries.get? (.ofImport importPath importer) before.resolved = none)
      (answer : (resolver importPath importer).result = .error failure) :
      Resolving resolver importPath importer before (.error failure)
        (before.afterCall resolver importPath importer)

/-- Resolving an import is one of its cases. -/
theorem resolving_resolveImport
    (resolver : ImportResolver)
    (importPath : String)
    (importer : Option String)
    (before : Traversal) :
    Resolving resolver importPath importer before
      (outcome (resolveImport resolver importPath importer) before).1
      (outcome (resolveImport resolver importPath importer) before).2 := by
  unfold resolveImport
  rw [outcome_bind_of_ok (outcome_get before)]
  cases found : Entries.get? (ImportKey.ofImport importPath importer) before.resolved with
  | some resolved => exact .known found
  | none =>
      dsimp only
      rw [outcome_bind_of_ok (outcome_modify _ before)]
      have reported : outcome (report (resolver importPath importer).notices)
          { before with calls := before.calls ++ [(importPath, importer)] } =
          (.ok ⟨⟩, before.afterCall resolver importPath importer) := rfl
      rw [outcome_bind_of_ok reported]
      cases answer : (resolver importPath importer).result with
      | error failure => exact .failed found answer
      | ok resolved => exact .answered found answer

namespace Resolving

variable
  {resolver : ImportResolver}
  {importPath : String}
  {importer : Option String}
  {before after : Traversal}

theorem sameModels {result : Except Failure ResolvedImport}
    (resolving : Resolving resolver importPath importer before result after) :
    SameModels before after := by
  cases resolving with
  | known found => exact .refl before
  | answered unknown answer => exact .of_eq rfl rfl
  | failed unknown answer => exact .of_eq rfl rfl

/-- A resolved import is on record. -/
theorem get?_resolved {resolved : ResolvedImport}
    (resolving : Resolving resolver importPath importer before (.ok resolved) after) :
    Entries.get? (.ofImport importPath importer) after.resolved = some resolved := by
  cases resolving with
  | known found => exact found
  | answered unknown answer => exact Entries.get?_insert_self ..

/-- Imports are only added to the record. -/
theorem resolved_grow {result : Except Failure ResolvedImport}
    (resolving : Resolving resolver importPath importer before result after) :
    before.resolved <+: after.resolved := by
  cases resolving with
  | known found => exact List.prefix_rfl
  | @answered resolved unknown answer =>
      change before.resolved <+: Entries.insert _ _ before.resolved
      rw [Entries.insert_of_get?_eq_none resolved unknown]
      exact List.prefix_append ..
  | failed unknown answer => exact List.prefix_rfl

end Resolving

/-! ## Asking for a parent -/

/-- The state in which more has been reported. -/
def notify (before : Traversal) (notices : List Notice) : Traversal :=
  { before with notices := before.notices ++ notices }

/-- The state in which the model of a parent has been built. -/
def build
    (before : Traversal)
    (ref : ModelRef)
    (name : String)
    (resolved : ResolvedImport) : Traversal :=
  { before with
    ancestors := Entries.insert ⟨resolved.path, name⟩
      ((before.model ref).ofParent name resolved) before.ancestors }

/-- The state in which a model has been linked to one of its parents. -/
def link
    (before : Traversal)
    (ref : ModelRef)
    (key : ParentKey)
    (ancestor : AncestorKey) : Traversal :=
  before.setModel ref { before.model ref with
    parents := Entries.insert key ancestor (before.model ref).parents }

/-- The cases of asking a model for a parent.  The parent may be linked already.
Otherwise its import may not be resolved, its file may occur in the lineage of
the model, or the model may turn out to have no name.  If all goes well the model
is linked to its parent, which is shared if it has been built before. -/
inductive Asking
    (resolver : ImportResolver)
    (ref : ModelRef)
    (importPath name : String)
    (before : Traversal) : Except Failure ModelRef → Traversal → Prop
  | linked {ancestor : AncestorKey}
      (known : Entries.get? ⟨importPath, name⟩ (before.model ref).parents = some ancestor) :
      Asking resolver ref importPath name before (.ok (.ancestor ancestor)) before
  | unresolved {failure : Failure} {after : Traversal}
      (unknown : Entries.get? ⟨importPath, name⟩ (before.model ref).parents = none)
      (resolving : Resolving resolver importPath (before.model ref).subject.filePath before
        (.error failure) after) :
      Asking resolver ref importPath name before (.error failure) after
  | circular {resolved : ResolvedImport} {after : Traversal}
      (unknown : Entries.get? ⟨importPath, name⟩ (before.model ref).parents = none)
      (resolving : Resolving resolver importPath (before.model ref).subject.filePath before
        (.ok resolved) after)
      (inLineage : resolved.path ∈ (before.model ref).lineage) :
      Asking resolver ref importPath name before
        (.error (.circularInheritance ((before.model ref).lineage ++ [resolved.path]))) after
  | unnamed {resolved : ResolvedImport} {middle after : Traversal} {failure : Failure}
      (unknown : Entries.get? ⟨importPath, name⟩ (before.model ref).parents = none)
      (resolving : Resolving resolver importPath (before.model ref).subject.filePath before
        (.ok resolved) middle)
      (notInLineage : resolved.path ∉ (before.model ref).lineage)
      (absent : ¬before.Has (.ancestor ⟨resolved.path, name⟩))
      (fails : outcome (derive ref Subject.name) middle = (.error failure, after)) :
      Asking resolver ref importPath name before (.error failure) after
  | shared {resolved : ResolvedImport} {middle : Traversal}
      (unknown : Entries.get? ⟨importPath, name⟩ (before.model ref).parents = none)
      (resolving : Resolving resolver importPath (before.model ref).subject.filePath before
        (.ok resolved) middle)
      (notInLineage : resolved.path ∉ (before.model ref).lineage)
      (present : before.Has (.ancestor ⟨resolved.path, name⟩)) :
      Asking resolver ref importPath name before (.ok (.ancestor ⟨resolved.path, name⟩))
        (middle.link ref ⟨importPath, name⟩ ⟨resolved.path, name⟩)
  | built {resolved : ResolvedImport} {middle named : Traversal} {child : String}
      (unknown : Entries.get? ⟨importPath, name⟩ (before.model ref).parents = none)
      (resolving : Resolving resolver importPath (before.model ref).subject.filePath before
        (.ok resolved) middle)
      (notInLineage : resolved.path ∉ (before.model ref).lineage)
      (absent : ¬before.Has (.ancestor ⟨resolved.path, name⟩))
      (derives : outcome (derive ref Subject.name) middle = (.ok child, named)) :
      Asking resolver ref importPath name before (.ok (.ancestor ⟨resolved.path, name⟩))
        (((named.notify [.loadingParent child name resolved.path]).build ref name
          resolved).link ref ⟨importPath, name⟩ ⟨resolved.path, name⟩)

/-- A parent that has been built is shared. -/
theorem outcome_register_of_has
    {before : Traversal}
    {name : String}
    {resolved : ResolvedImport}
    (present : before.Has (.ancestor ⟨resolved.path, name⟩))
    (ref : ModelRef) :
    outcome (register ref name resolved) before =
      (.ok ⟨resolved.path, name⟩, before) := by
  unfold register
  rw [outcome_bind_of_ok (outcome_get before)]
  obtain ⟨found, known⟩ := Option.isSome_iff_exists.mp present
  rw [known]
  rfl

/-- A parent that has not been built is built, once the child has said its name. -/
theorem outcome_register_of_not_has
    {before : Traversal}
    {name : String}
    {resolved : ResolvedImport}
    (absent : ¬before.Has (.ancestor ⟨resolved.path, name⟩))
    (ref : ModelRef) :
    outcome (register ref name resolved) before =
      match outcome (derive ref Subject.name) before with
      | (.ok child, named) => (.ok ⟨resolved.path, name⟩,
          (named.notify [.loadingParent child name resolved.path]).build ref name resolved)
      | (.error failure, after) => (.error failure, after) := by
  unfold register
  rw [outcome_bind_of_ok (outcome_get before)]
  have unknown : Entries.get? (⟨resolved.path, name⟩ : AncestorKey) before.ancestors = none :=
    Option.not_isSome_iff_eq_none.mp absent
  rw [unknown]
  rcases ran : outcome (derive ref Subject.name) before with ⟨result, after⟩
  cases result with
  | error failure => exact outcome_bind_of_error ran
  | ok child => exact (outcome_bind_of_ok ran).trans rfl

/-- Asking for a parent is one of its cases. -/
theorem asking_parent
    (resolver : ImportResolver)
    (ref : ModelRef)
    (importPath name : String)
    (before : Traversal) :
    Asking resolver ref importPath name before
      (outcome (parent resolver ref importPath name) before).1
      (outcome (parent resolver ref importPath name) before).2 := by
  unfold parent
  have looked : outcome (getModel ref) before = (.ok (before.model ref), before) := rfl
  rw [outcome_bind_of_ok looked]
  cases known : Entries.get? (⟨importPath, name⟩ : ParentKey) (before.model ref).parents with
  | some ancestor => exact .linked known
  | none =>
      have resolving := resolving_resolveImport resolver importPath
        (before.model ref).subject.filePath before
      rcases ran : outcome (resolveImport resolver importPath
        (before.model ref).subject.filePath) before with ⟨result, middle⟩
      rw [ran] at resolving
      cases result with
      | error failure =>
          simp only [outcome_bind_of_error ran]
          exact .unresolved known resolving
      | ok resolved =>
          simp only [outcome_bind_of_ok ran]
          by_cases inLineage : resolved.path ∈ (before.model ref).lineage
          · simp only [List.contains_iff_mem, inLineage, if_true]
            exact .circular known resolving inLineage
          · simp only [List.contains_iff_mem, inLineage, if_false]
            have same := resolving.sameModels
            by_cases present : before.Has (.ancestor ⟨resolved.path, name⟩)
            · have registers := outcome_register_of_has
                ((same.has_iff _).mpr present) ref
              rw [outcome_bind_of_ok registers]
              exact .shared known resolving inLineage present
            · have registers := outcome_register_of_not_has
                (fun built => present ((same.has_iff _).mp built)) ref
              rcases named : outcome (derive ref Subject.name) middle with ⟨result, after⟩
              rw [named] at registers
              cases result with
              | error failure =>
                  rw [outcome_bind_of_error registers]
                  exact .unnamed known resolving inLineage present named
              | ok child =>
                  rw [outcome_bind_of_ok registers]
                  exact .built known resolving inLineage present named

end Traversal
end ContractDoc
