import ContractDoc.Proofs.Resolver
import ContractDoc.Proofs.Traversal.Passage

/-!
# What the resolver has answered

All imports on record are answers of the resolver, and so are the sources of all
ancestors.  If the resolver is canonical, every link leads to the contract that the
resolver names for the parent, although the answer may have been given to another
file.
-/

namespace ContractDoc
namespace Traversal

/-- All imports on record have been answered by the resolver for eligible importers. -/
def Records
    (resolver : ImportResolver)
    (eligible : ImportKey → Option String → Prop)
    (state : Traversal) : Prop :=
  ∀ key resolved, Entries.get? key state.resolved = some resolved →
    ∃ importer, eligible key importer ∧
      (resolver key.importPath importer).result = .ok resolved

namespace Records

variable
  {resolver : ImportResolver}
  {eligible : ImportKey → Option String → Prop}
  {before after : Traversal}

/-- Resolving an import for an eligible importer records an answer. -/
theorem resolving
    {importPath : String}
    {importer : Option String}
    {result : Except Failure ResolvedImport}
    (records : Records resolver eligible before)
    (allowed : eligible (.ofImport importPath importer) importer)
    (resolving : Resolving resolver importPath importer before result after) :
    Records resolver eligible after := by
  cases resolving with
  | known found => exact records
  | failed unknown answer => exact records
  | @answered resolved unknown answer =>
      intro key found known
      change Entries.get? key (Entries.insert _ resolved before.resolved) = some found at known
      rw [Entries.get?_insert] at known
      split at known
      · rename_i key_eq
        rw [key_eq, ← Option.some.inj known]
        exact ⟨importer, allowed, answer⟩
      · exact records key found known

/-- Asking an eligible importer for a parent records answers only. -/
theorem parent
    (records : Records resolver eligible before)
    (ref : ModelRef)
    (importPath : String)
    (allowed : eligible (.ofImport importPath (before.model ref).subject.filePath)
      (before.model ref).subject.filePath)
    (name : String) :
    Records resolver eligible
      (outcome (Traversal.parent resolver ref importPath name) before).2 := by
  have asking := asking_parent resolver ref importPath name before
  obtain ⟨middle, resolves, resolved_eq, _⟩ := asking.records
  unfold Records
  rw [resolved_eq]
  rcases resolves with rfl | ⟨resolution, resolving⟩
  · exact records
  · exact records.resolving allowed resolving

end Records

/-- All that is on record, and all sources of ancestors, are answers of the resolver.
An answer on record has been given in the directory of its key. -/
structure Answered (resolver : ImportResolver) (state : Traversal) : Prop where
  recorded : Records resolver
    (fun key importer => key = .ofImport key.importPath importer) state
  obtained : ∀ key, state.Has (.ancestor key) →
    ∃ importPath importer resolved,
      (resolver importPath importer).result = .ok resolved ∧ resolved.path = key.path ∧
        (state.model (.ancestor key)).subject = .ofParent key.name resolved

namespace Answered

variable
  {resolver : ImportResolver}
  {before after : Traversal}

/-- At the start nothing is on record. -/
theorem start (subject : Subject) (mergesParents : Option Bool) :
    Answered resolver (Traversal.start subject mergesParents) where
  recorded := nofun
  obtained := nofun

/-- Asking for a parent adds answers only. -/
theorem parent
    {ref : ModelRef}
    (answered : Answered resolver before)
    (present : before.Has ref)
    (importPath name : String) :
    Answered resolver
      (outcome (Traversal.parent resolver ref importPath name) before).2 := by
  have recorded := answered.recorded.parent ref importPath rfl name
  have asking := asking_parent resolver ref importPath name before
  refine ⟨recorded, ?_⟩
  intro key keyPresent
  rcases asking.kept_or_attached present with ⟨same, _⟩ | ⟨resolved, _, attached⟩
  · have was := (same.has_iff _).mp keyPresent
    rw [same.subject_eq was]
    exact answered.obtained key was
  · by_cases was : before.Has (.ancestor key)
    · rw [attached.model_eq _ was]
      exact answered.obtained key was
    · have key_eq := ((attached.has_iff _).mp keyPresent).resolve_left was
      obtain rfl := ModelRef.ancestor.inj key_eq
      obtain ⟨importer, _, answer⟩ := recorded _ _ attached.recorded
      rw [attached.model_new was]
      exact ⟨_, importer, resolved, answer, rfl, rfl⟩

/-- Along every passage only answers are added. -/
theorem passage
    {questions : List Question}
    (answered : Answered resolver before)
    (passage : Passage resolver before questions after) :
    Answered resolver after := by
  induction passage with
  | start => exact answered
  | @derive questions state ref α value plain passage present yields ih =>
      have same := sameModels_derive present value
      refine ⟨?_, ?_⟩
      · unfold Records
        rw [resolved_derive]
        exact ih.recorded
      · intro key keyPresent
        have was := (same.has_iff _).mp keyPresent
        rw [same.subject_eq was]
        exact ih.obtained key was
  | ask question passage present ih => exact ih.parent present _ _

/-- An import on record is what a canonical resolver answers, although another file of
the directory may have asked for it. -/
theorem answer_of_recorded
    {importPath : String}
    {importer : Option String}
    {resolved : ResolvedImport}
    (answered : Answered resolver before)
    (canonical : resolver.Canonical)
    (recorded : Entries.get? (.ofImport importPath importer) before.resolved = some resolved) :
    (resolver importPath importer).result = .ok resolved := by
  obtain ⟨other, key_eq, answer⟩ := answered.recorded _ _ recorded
  have sameAnswer := canonical.byDirectory key_eq
  change (resolver importPath other).result = .ok resolved at answer
  change _ = (resolver importPath other).result.toOption at sameAnswer
  rw [answer] at sameAnswer
  generalize (resolver importPath importer).result = found at sameAnswer
  cases found with
  | error failure => cases sameAnswer
  | ok found => rw [Option.some.inj sameAnswer]

/-- A link leads to the contract that a canonical resolver names for the parent. -/
theorem subject_of_linked
    {ref : ModelRef}
    {key : ParentKey}
    {ancestor : AncestorKey}
    (answered : Answered resolver before)
    (canonical : resolver.Canonical)
    (sound : before.Sound)
    (present : before.Has ref)
    (linked : Entries.get? key (before.model ref).parents = some ancestor) :
    ∃ resolved,
      (resolver key.importPath (before.model ref).subject.filePath).result = .ok resolved ∧
        (before.model (.ancestor ancestor)).subject = .ofParent key.name resolved := by
  have leads := sound.leads ref present key ancestor linked
  obtain ⟨resolved, path_eq, recorded⟩ := leads.recorded
  have answer := answered.answer_of_recorded canonical recorded
  obtain ⟨_, _, other, otherAnswer, otherPath_eq, subject_eq⟩ :=
    answered.obtained ancestor leads.present
  have resolved_eq : resolved = other :=
    canonical.oneSource answer otherAnswer (path_eq.trans otherPath_eq.symm)
  refine ⟨resolved, answer, ?_⟩
  rw [subject_eq, leads.name_eq, resolved_eq]

end Answered

end Traversal
end ContractDoc
