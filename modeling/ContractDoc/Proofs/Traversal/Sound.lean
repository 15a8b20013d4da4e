import ContractDoc.Proofs.Traversal.Growth
import Mathlib.Data.List.Nodup

/-!
# Sound traversals

In a sound traversal all models know only what is true of their contracts, every
link leads to the ancestor that the record of imports names, and every ancestor is
what its key says.  Derivations and questions for parents keep a traversal sound,
whatever the resolver answers.
-/

namespace ContractDoc

namespace Model

/-- The model of an ancestor is what its key says: a contract of its file, under
its name, whose own parents are merged in. -/
structure Matches (model : Model) (key : AncestorKey) : Prop where
  filePath_eq : model.subject.filePath = some key.path
  contractName_eq : model.subject.contractName = some key.name
  acceptsFirst_eq : model.subject.acceptsFirst = true
  mergesParents_eq : model.mergesParents = some true
  mem_lineage : key.path ≠ "" → key.path ∈ model.lineage

/-- An ancestor goes on matching its key while it grows. -/
theorem Matches.of_grows
    {before after : Model}
    {key : AncestorKey}
    (matching : before.Matches key)
    (grows : before.Grows after) :
    after.Matches key where
  filePath_eq := by rw [grows.subject_eq, matching.filePath_eq]
  contractName_eq := by rw [grows.subject_eq, matching.contractName_eq]
  acceptsFirst_eq := by rw [grows.subject_eq, matching.acceptsFirst_eq]
  mergesParents_eq := by rw [grows.mergesParents_eq, matching.mergesParents_eq]
  mem_lineage := by rw [grows.lineage_eq]; exact matching.mem_lineage

/-- The lineage of a file that has a path. -/
theorem extendLineage_some
    {path : String}
    (nonempty : path ≠ "")
    (lineage : List String) :
    extendLineage lineage (some path) =
      if path ∈ lineage then lineage else lineage ++ [path] := by
  have path_eq : nonempty? (some path) = some path := by
    unfold nonempty?
    rw [Option.filter_some, if_pos (by simpa using nonempty)]
  unfold extendLineage
  rw [path_eq]
  simp only [List.contains_iff_mem]

/-- The model of a parent matches its key. -/
theorem matches_ofParent
    (child : Model)
    (name : String)
    (resolved : ResolvedImport) :
    (child.ofParent name resolved).Matches ⟨resolved.path, name⟩ := by
  refine ⟨rfl, rfl, rfl, rfl, ?_⟩
  intro nonempty
  change resolved.path ∈ extendLineage child.lineage (some resolved.path)
  rw [extendLineage_some nonempty]
  split
  · assumption
  · exact List.mem_append_right _ List.mem_cons_self

end Model

namespace Traversal

/-- All models know plain values only. -/
def Truthful (traversal : Traversal) : Prop :=
  ∀ ref, traversal.Has ref →
    (traversal.model ref).subject.Truthful (traversal.model ref).cache

namespace Truthful

variable {before : Traversal}

/-- The records of a traversal do not matter for what its models know. -/
theorem of_eq
    {after : Traversal}
    (truthful : before.Truthful)
    (root_eq : after.root = before.root)
    (ancestors_eq : after.ancestors = before.ancestors) :
    after.Truthful := by
  intro ref present
  have model_eq : after.model ref = before.model ref := by
    cases ref with
    | root => exact root_eq
    | ancestor key => simp [Traversal.model, root_eq, ancestors_eq]
  rw [model_eq]
  exact truthful ref
    (((SameModels.of_eq root_eq ancestors_eq).has_iff ref).mp present)

/-- A derivation that yields plain values keeps all models truthful. -/
theorem derive
    {α : Type}
    {ref : ModelRef}
    {value : Subject → Derive α}
    {plain : Subject → Except Failure α}
    (truthful : before.Truthful)
    (present : before.Has ref)
    (yields : ∀ subject : Subject, subject.Yields (value subject) (plain subject)) :
    (outcome (Traversal.derive ref value) before).2.Truthful := by
  intro other otherPresent
  have was := ((sameModels_derive present value).has_iff other).mp otherPresent
  rw [outcome_derive]
  change Subject.Truthful ((before.setModel ref _).model other).subject
    ((before.setModel ref _).model other).cache
  rw [model_setModel was]
  by_cases same : other = ref
  · subst same
    rw [if_pos rfl]
    exact (yields _ _ (truthful other was)).2
  · rw [if_neg same]
    exact truthful other was

/-- A model that is built knows nothing yet. -/
theorem build
    {name : String}
    {resolved : ResolvedImport}
    (truthful : before.Truthful)
    (absent : ¬before.Has (.ancestor ⟨resolved.path, name⟩))
    (ref : ModelRef) :
    (before.build ref name resolved).Truthful := by
  intro other otherPresent
  by_cases same : other = .ancestor ⟨resolved.path, name⟩
  · subst same
    rw [model_build_self]
    exact Subject.truthful_empty _
  · have was := ((has_build absent ref other).mp otherPresent).resolve_right same
    rw [model_build absent ref was]
    exact truthful other was

/-- Links do not matter for what models know. -/
theorem link
    {ref : ModelRef}
    (truthful : before.Truthful)
    (present : before.Has ref)
    (key : ParentKey)
    (ancestor : AncestorKey) :
    (before.link ref key ancestor).Truthful := by
  intro other otherPresent
  have was := (has_iff_of_keys_eq (keys_link present key ancestor) other).mp otherPresent
  unfold Traversal.link
  rw [model_setModel was]
  by_cases same : other = ref
  · subst same
    rw [if_pos rfl]
    exact truthful other was
  · rw [if_neg same]
    exact truthful other was

end Truthful

/-- Resolving an import keeps all models truthful. -/
theorem Resolving.truthful
    {resolver : ImportResolver}
    {importPath : String}
    {importer : Option String}
    {before after : Traversal}
    {result : Except Failure ResolvedImport}
    (resolving : Resolving resolver importPath importer before result after)
    (truthful : before.Truthful) :
    after.Truthful := by
  cases resolving with
  | known found => exact truthful
  | answered unknown answer => exact truthful.of_eq rfl rfl
  | failed unknown answer => exact truthful.of_eq rfl rfl

/-- Asking for a parent keeps all models truthful. -/
theorem Asking.truthful
    {resolver : ImportResolver}
    {ref : ModelRef}
    {importPath name : String}
    {before after : Traversal}
    {result : Except Failure ModelRef}
    (asking : Asking resolver ref importPath name before result after)
    (present : before.Has ref)
    (truthful : before.Truthful) :
    after.Truthful := by
  cases asking with
  | linked known => exact truthful
  | unresolved unknown resolving => exact resolving.truthful truthful
  | circular unknown resolving inLineage => exact resolving.truthful truthful
  | unnamed unknown resolving notInLineage absent fails =>
      have stays := (resolving.sameModels.has_iff ref).mpr present
      have derived := (resolving.truthful truthful).derive stays Subject.yields_name
      rw [fails] at derived
      exact derived
  | shared unknown resolving notInLineage shared =>
      exact (resolving.truthful truthful).link
        ((resolving.sameModels.has_iff ref).mpr present) _ _
  | @built resolved middle named child unknown resolving notInLineage absent derives =>
      have same := resolving.sameModels
      have stays := (same.has_iff ref).mpr present
      have derived := (resolving.truthful truthful).derive stays Subject.yields_name
      have derivedSame := same.trans (sameModels_derive stays Subject.name)
      rw [derives] at derived derivedSame
      have ready : SameModels before
          (named.notify [.loadingParent child name resolved.path]) :=
        derivedSame.trans (.of_eq rfl rfl)
      have stillAbsent := fun found => absent ((ready.has_iff _).mp found)
      have builtTruthful := (derived.of_eq rfl rfl :
        (named.notify [.loadingParent child name resolved.path]).Truthful).build
          stillAbsent ref
      refine builtTruthful.link ?_ _ _
      exact (has_build stillAbsent ref ref).mpr (.inl ((ready.has_iff ref).mpr present))

/-! ## The invariant -/

/-- A link leads to an ancestor that is there, and that the record of imports
names. -/
structure Leads
    (traversal : Traversal)
    (ref : ModelRef)
    (key : ParentKey)
    (ancestor : AncestorKey) : Prop where
  present : traversal.Has (.ancestor ancestor)
  name_eq : ancestor.name = key.name
  recorded : ∃ resolved, resolved.path = ancestor.path ∧
    Entries.get? (.ofImport key.importPath (traversal.model ref).subject.filePath)
      traversal.resolved = some resolved

/-- The invariant of a traversal. -/
structure Sound (traversal : Traversal) : Prop where
  truthful : traversal.Truthful
  leads : ∀ ref, traversal.Has ref → ∀ key ancestor,
    Entries.get? key (traversal.model ref).parents = some ancestor →
      traversal.Leads ref key ancestor
  matches_key : ∀ key, traversal.Has (.ancestor key) →
    (traversal.model (.ancestor key)).Matches key
  keys_nodup : (Entries.keys traversal.ancestors).Nodup

/-- A link goes on leading to its ancestor while a traversal grows. -/
theorem Leads.of_grows
    {before after : Traversal}
    {ref : ModelRef}
    {key : ParentKey}
    {ancestor : AncestorKey}
    (leads : before.Leads ref key ancestor)
    (present : before.Has ref)
    (grows : Grows before after) :
    after.Leads ref key ancestor := by
  obtain ⟨resolved, path_eq, recorded⟩ := leads.recorded
  refine ⟨grows.has leads.present, leads.name_eq, resolved, path_eq, ?_⟩
  rw [grows.subject_eq present]
  exact grows.get?_resolved recorded

namespace Sound

variable {before after : Traversal}

/-- A fresh traversal is sound. -/
theorem start (subject : Subject) (mergesParents : Option Bool) :
    (Traversal.start subject mergesParents).Sound := by
  refine ⟨?_, ?_, ?_, List.nodup_nil⟩
  · intro ref present
    cases ref with
    | root => exact subject.truthful_empty
    | ancestor key => exact absurd present Bool.false_ne_true
  · intro ref present key ancestor linked
    cases ref with
    | root => cases linked
    | ancestor key => exact absurd present Bool.false_ne_true
  · intro key present
    exact absurd present Bool.false_ne_true

/-- A traversal that keeps its models stays sound as it grows. -/
theorem of_sameModels
    (sound : before.Sound)
    (same : SameModels before after)
    (grows : Grows before after)
    (truthful : after.Truthful) :
    after.Sound where
  truthful := truthful
  leads := by
    intro ref present key ancestor linked
    have was := (same.has_iff ref).mp present
    rw [same.parents_eq was] at linked
    exact (sound.leads ref was key ancestor linked).of_grows was grows
  matches_key := by
    intro key present
    have was := (same.has_iff _).mp present
    exact (sound.matches_key key was).of_grows (grows.model_grows _ was)
  keys_nodup := by
    rw [same.keys_eq]
    exact sound.keys_nodup

/-- A derivation that yields plain values keeps a traversal sound. -/
theorem derive
    {α : Type}
    {ref : ModelRef}
    {value : Subject → Derive α}
    {plain : Subject → Except Failure α}
    (sound : before.Sound)
    (present : before.Has ref)
    (yields : ∀ subject : Subject, subject.Yields (value subject) (plain subject)) :
    (outcome (Traversal.derive ref value) before).2.Sound :=
  sound.of_sameModels (sameModels_derive present value) (grows_derive present value)
    (sound.truthful.derive present yields)

/-- Attaching a parent keeps a traversal sound. -/
theorem of_attached
    {ref : ModelRef}
    {importPath name : String}
    {resolved : ResolvedImport}
    (sound : before.Sound)
    (present : before.Has ref)
    (attached : Attached before ref importPath name resolved after)
    (grows : Grows before after)
    (truthful : after.Truthful) :
    after.Sound := by
  refine ⟨truthful, ?_, ?_, ?_⟩
  · intro other otherPresent key ancestor linked
    by_cases was : before.Has other
    · rw [attached.parents_eq was] at linked
      by_cases asked : other = ref
      · subst asked
        rw [if_pos rfl, ← Entries.insert_of_get?_eq_none _ attached.unknown,
          Entries.get?_insert] at linked
        split at linked
        · rename_i key_eq
          obtain rfl := Option.some.inj linked
          subst key_eq
          refine ⟨(attached.has_iff _).mpr (.inr rfl), rfl, resolved, rfl, ?_⟩
          rw [grows.subject_eq present]
          exact attached.recorded
        · exact (sound.leads other was key ancestor linked).of_grows was grows
      · rw [if_neg asked] at linked
        exact (sound.leads other was key ancestor linked).of_grows was grows
    · obtain rfl := ((attached.has_iff other).mp otherPresent).resolve_left was
      rw [attached.model_new was] at linked
      cases linked
  · intro key keyPresent
    by_cases was : before.Has (.ancestor key)
    · exact (sound.matches_key key was).of_grows (grows.model_grows _ was)
    · have key_eq := ((attached.has_iff _).mp keyPresent).resolve_left was
      obtain rfl := ModelRef.ancestor.inj key_eq
      rw [attached.model_new was]
      exact Model.matches_ofParent ..
  · rw [attached.keys_eq]
    split
    · exact sound.keys_nodup
    · rename_i absent
      rw [has_ancestor_iff] at absent
      simpa using sound.keys_nodup.concat absent

/-- Asking for a parent keeps a traversal sound, whether it succeeds or fails. -/
theorem parent
    {ref : ModelRef}
    (sound : before.Sound)
    (present : before.Has ref)
    (resolver : ImportResolver)
    (importPath name : String) :
    (outcome (Traversal.parent resolver ref importPath name) before).2.Sound := by
  have asking := asking_parent resolver ref importPath name before
  have grows := grows_parent resolver importPath name present
  have truthful := asking.truthful present sound.truthful
  rcases asking.kept_or_attached present with ⟨same, _⟩ | ⟨resolved, _, attached⟩
  · exact sound.of_sameModels same grows truthful
  · exact sound.of_attached present attached grows truthful

/-- The members of parents are merged into the documents of ancestors. -/
theorem merges_ancestor
    {key : AncestorKey}
    (sound : before.Sound)
    (present : before.Has (.ancestor key)) :
    (none <|> (before.model (.ancestor key)).mergesParents).getD false = true := by
  rw [(sound.matches_key key present).mergesParents_eq]
  rfl

/-- The parent that a model returns is there. -/
theorem has_of_parent
    {ref parentRef : ModelRef}
    {resolver : ImportResolver}
    {importPath name : String}
    (sound : before.Sound)
    (present : before.Has ref)
    (returns : outcome (Traversal.parent resolver ref importPath name) before =
      (.ok parentRef, after)) :
    after.Has parentRef := by
  have asking := asking_parent resolver ref importPath name before
  rw [returns] at asking
  rcases asking.kept_or_attached present with ⟨same, linked⟩ | ⟨resolved, result_eq, attached⟩
  · obtain ⟨ancestor, rfl, known⟩ := linked parentRef rfl
    exact (same.has_iff _).mpr (sound.leads ref present _ _ known).present
  · rw [Except.ok.inj result_eq]
    exact (attached.has_iff _).mpr (.inr rfl)

end Sound

end Traversal
end ContractDoc
