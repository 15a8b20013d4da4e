import ContractDoc.Proofs.Traversal.Answered
import ContractDoc.Proofs.Traversal.Limit
import Mathlib.Data.Option.Basic

/-!
# Traversals among finitely many files

If the canonical paths of all answers are among given ones, only finitely many
ancestors can be built, however the traversal goes on.  Each ancestor is found for
a declared parent of a contract one file back in its lineage, and a lineage has no
more files than there are.  A document that does not end has therefore gone in
a circle.
-/

namespace ContractDoc

namespace Subject

/-- The key under which a contract is registered as an ancestor. -/
def ancestorKey (subject : Subject) : AncestorKey :=
  ⟨subject.filePath.getD "", subject.contractName.getD ""⟩

/-- The contracts that can be found for the declared parents of a contract, whichever
of the given files imports them. -/
def parentsFound
    (child : Subject)
    (resolver : ImportResolver)
    (files : List (Option String)) : List Subject :=
  child.declaredParents.flatMap fun (name, importPath) =>
    files.filterMap fun importer =>
      (resolver importPath importer).result.toOption.map (ofParent name)

theorem mem_parentsFound
    {child parent : Subject}
    {resolver : ImportResolver}
    {files : List (Option String)} :
    parent ∈ child.parentsFound resolver files ↔
      ∃ name importPath, child.Declares name importPath ∧ ∃ importer ∈ files, ∃ resolved,
        (resolver importPath importer).result = .ok resolved ∧
          parent = ofParent name resolved := by
  unfold parentsFound
  simp only [List.mem_flatMap, List.mem_filterMap]
  constructor
  · rintro ⟨⟨name, importPath⟩, declares, importer, member, found⟩
    refine ⟨name, importPath, declares, importer, member, ?_⟩
    cases answer : (resolver importPath importer).result with
    | error failure =>
        rw [answer] at found
        cases found
    | ok resolved =>
        rw [answer] at found
        exact ⟨resolved, rfl, (Option.some.inj found).symm⟩
  · rintro ⟨name, importPath, declares, importer, member, resolved, answer, rfl⟩
    refine ⟨(name, importPath), declares, importer, member, ?_⟩
    rw [answer]
    rfl

/-- The contracts that can be found a number of generations up. -/
def generation
    (origin : Subject)
    (resolver : ImportResolver)
    (files : List (Option String)) : (count : Nat) → List Subject
  | 0 => [origin]
  | count + 1 =>
      (origin.generation resolver files count).flatMap fun child =>
        child.parentsFound resolver files

/-- All contracts that can be found in as many generations as there are files. -/
def relatives
    (origin : Subject)
    (resolver : ImportResolver)
    (files : List (Option String)) : List Subject :=
  (List.range (files.length + 1)).flatMap (origin.generation resolver files)

end Subject

/-! ## Confined models -/

/-- A model is confined if its file and its lineage are among the given files, and if
its contract is no more generations up than its lineage is long. -/
structure Model.Confined
    (resolver : ImportResolver)
    (files : List (Option String))
    (origin : Subject)
    (model : Model) : Prop where
  filePath_mem : model.subject.filePath ∈ files
  lineage_mem : ∀ path ∈ model.lineage, some path ∈ files
  lineage_nodup : model.lineage.Nodup
  descends : ∃ count, count ≤ model.lineage.length ∧
    model.subject ∈ origin.generation resolver files count

namespace Model.Confined

variable
  {resolver : ImportResolver}
  {files : List (Option String)}
  {origin : Subject}

/-- Whether a model is confined depends on its contract and its lineage. -/
theorem of_grows
    {before after : Model}
    (confined : before.Confined resolver files origin)
    (grows : before.Grows after) :
    after.Confined resolver files origin where
  filePath_mem := by rw [grows.subject_eq]; exact confined.filePath_mem
  lineage_mem := by rw [grows.lineage_eq]; exact confined.lineage_mem
  lineage_nodup := by rw [grows.lineage_eq]; exact confined.lineage_nodup
  descends := by rw [grows.subject_eq, grows.lineage_eq]; exact confined.descends

/-- A contract of a confined model is among finitely many. -/
theorem subject_mem
    {model : Model}
    (confined : model.Confined resolver files origin) :
    model.subject ∈ origin.relatives resolver files := by
  obtain ⟨count, count_le, member⟩ := confined.descends
  have distinct : (model.lineage.map some).Nodup :=
    confined.lineage_nodup.map (Option.some_injective _)
  have subset : model.lineage.map some ⊆ files := by
    intro file fileMember
    obtain ⟨path, pathMember, rfl⟩ := List.mem_map.mp fileMember
    exact confined.lineage_mem path pathMember
  have lineage_le := (distinct.subperm subset).length_le
  rw [List.length_map] at lineage_le
  unfold Subject.relatives
  rw [List.mem_flatMap]
  exact ⟨count, List.mem_range.mpr (by omega), member⟩

/-- The model of a declared parent is confined, one generation further up. -/
theorem ofParent
    {child : Model}
    {name importPath : String}
    {importer : Option String}
    {resolved : ResolvedImport}
    (confined : child.Confined resolver files origin)
    (declares : child.subject.Declares name importPath)
    (member : importer ∈ files)
    (answer : (resolver importPath importer).result = .ok resolved)
    (path_ne : resolved.path ≠ "")
    (path_mem : some resolved.path ∈ files)
    (notInLineage : resolved.path ∉ child.lineage) :
    (child.ofParent name resolved).Confined resolver files origin := by
  obtain ⟨count, count_le, childMember⟩ := confined.descends
  have lineage_eq : (child.ofParent name resolved).lineage =
      child.lineage ++ [resolved.path] := by
    change extendLineage child.lineage (some resolved.path) = _
    rw [extendLineage_some path_ne, if_neg notInLineage]
  refine ⟨path_mem, ?_, ?_, count + 1, ?_, ?_⟩
  · rw [lineage_eq]
    intro path pathMember
    rcases List.mem_append.mp pathMember with old | new
    · exact confined.lineage_mem path old
    · rw [List.mem_singleton.mp new]
      exact path_mem
  · rw [lineage_eq, List.nodup_append]
    refine ⟨confined.lineage_nodup, List.nodup_singleton _, ?_⟩
    rintro path old _ new rfl
    rw [List.mem_singleton.mp new] at old
    exact notInLineage old
  · rw [lineage_eq, List.length_append, List.length_singleton]
    omega
  · change Subject.ofParent name resolved ∈ _
    unfold Subject.generation
    rw [List.mem_flatMap]
    exact ⟨child.subject, childMember, Subject.mem_parentsFound.mpr
      ⟨name, importPath, declares, importer, member, resolved, answer, rfl⟩⟩

end Model.Confined

namespace Traversal

/-! ## Confined traversals -/

/-- A traversal is confined if its models are, and if all imports on record have been
answered for given files. -/
structure Confined
    (resolver : ImportResolver)
    (files : List (Option String))
    (origin : Subject)
    (state : Traversal) : Prop where
  recorded : Records resolver (fun _ importer => importer ∈ files) state
  model_confined : ∀ ref, state.Has ref →
    (state.model ref).Confined resolver files origin

namespace Confined

variable
  {resolver : ImportResolver}
  {files : List (Option String)}
  {origin : Subject}
  {before after : Traversal}

/-- A traversal stays confined while its models grow. -/
theorem of_grows
    (confined : Confined resolver files origin before)
    (grows : Grows before after)
    (recorded : Records resolver (fun _ importer => importer ∈ files) after)
    (built : ∀ ref, after.Has ref → ¬before.Has ref →
      (after.model ref).Confined resolver files origin) :
    Confined resolver files origin after := by
  refine ⟨recorded, ?_⟩
  intro ref present
  by_cases was : before.Has ref
  · exact (confined.model_confined ref was).of_grows (grows.model_grows ref was)
  · exact built ref present was

/-- A question for a declared parent keeps a traversal confined. -/
theorem ask
    {paths : List String}
    {question : Question}
    (confined : Confined resolver files origin question.state)
    (within : resolver.Within paths)
    (paths_mem : ∀ path ∈ paths, some path ∈ files)
    (present : question.Present)
    (declared : question.Declared) :
    Confined resolver files origin (question.after resolver) := by
  have grows := grows_parent resolver question.importPath question.name present
  have asking := asking_parent resolver question.ref question.importPath question.name
    question.state
  have child := confined.model_confined question.ref present
  have recorded := confined.recorded.parent question.ref question.importPath
    child.filePath_mem question.name
  refine confined.of_grows grows recorded ?_
  intro ref refPresent absent
  rcases asking.kept_or_attached present with ⟨same, _⟩ | ⟨resolved, _, attached⟩
  · exact absurd ((same.has_iff ref).mp refPresent) absent
  · obtain rfl := ((attached.has_iff ref).mp refPresent).resolve_left absent
    obtain ⟨importer, member, answer⟩ := recorded _ _ attached.recorded
    have model_eq := attached.model_new absent
    unfold Question.after
    rw [model_eq]
    exact child.ofParent declared member answer (within.path_ne answer)
      (paths_mem _ (within.path_mem answer)) attached.notInLineage

/-- A traversal stays confined along every passage with questions for declared parents
only. -/
theorem passage
    {paths : List String}
    {questions : List Question}
    (confined : Confined resolver files origin before)
    (within : resolver.Within paths)
    (paths_mem : ∀ path ∈ paths, some path ∈ files)
    (passage : Passage resolver before questions after)
    (declared : ∀ question ∈ questions, question.Declared) :
    Confined resolver files origin after := by
  induction passage with
  | start => exact confined
  | @derive questions state ref α value plain passage present yields ih =>
      have soFar := ih declared
      refine soFar.of_grows (grows_derive present value) ?_ ?_
      · unfold Records
        rw [resolved_derive]
        exact soFar.recorded
      · intro other otherPresent absent
        exact absurd (((sameModels_derive present value).has_iff other).mp otherPresent) absent
  | ask question passage present ih =>
      have soFar := ih fun other member => declared other (List.mem_append_left _ member)
      exact soFar.ask within paths_mem present
        (declared question (List.mem_append_right _ List.mem_cons_self))

/-- The number of ancestors in confined traversals is bounded. -/
theorem count_le
    (confined : Confined resolver files origin before)
    (sound : before.Sound) :
    (Entries.keys before.ancestors).length ≤ (origin.relatives resolver files).length := by
  have subset : Entries.keys before.ancestors ⊆
      (origin.relatives resolver files).map Subject.ancestorKey := by
    intro key member
    have present := has_ancestor_iff.mpr member
    have matching := sound.matches_key key present
    refine List.mem_map.mpr
      ⟨_, (confined.model_confined (.ancestor key) present).subject_mem, ?_⟩
    unfold Subject.ancestorKey
    rw [matching.filePath_eq, matching.contractName_eq]
    rfl
  have length_le := (sound.keys_nodup.subperm subset).length_le
  rwa [List.length_map] at length_le

end Confined

/-- The files of a traversal: the one of its root and those of all answers. -/
def filesOf (subject : Subject) (paths : List String) : List (Option String) :=
  subject.filePath :: paths.map some

/-- A traversal is confined at its start. -/
theorem confined_start
    (resolver : ImportResolver)
    (subject : Subject)
    (mergesParents : Option Bool)
    (paths : List String) :
    Confined resolver (filesOf subject paths) subject (start subject mergesParents) := by
  refine ⟨nofun, ?_⟩
  intro ref present
  cases ref with
  | ancestor key => cases present
  | root =>
      change (Model.fresh subject mergesParents []).Confined resolver _ subject
      have lineage_cases : (Model.fresh subject mergesParents []).lineage = [] ∨
          ∃ path, subject.filePath = some path ∧
            (Model.fresh subject mergesParents []).lineage = [path] := by
        unfold Model.fresh Model.extendLineage
        cases found : nonempty? subject.filePath with
        | none => exact .inl rfl
        | some path => exact .inr ⟨path, (Option.filter_eq_some_iff.mp found).1, rfl⟩
      refine ⟨List.mem_cons_self, ?_, ?_, 0, Nat.zero_le _, List.mem_singleton_self _⟩
      · rcases lineage_cases with lineage_eq | ⟨path, path_eq, lineage_eq⟩
        · rw [lineage_eq]
          exact List.forall_mem_nil _
        · rw [lineage_eq]
          intro other member
          rw [List.mem_singleton.mp member, ← path_eq]
          exact List.mem_cons_self
      · rcases lineage_cases with lineage_eq | ⟨path, _, lineage_eq⟩
        · rw [lineage_eq]
          exact List.nodup_nil
        · rw [lineage_eq]
          exact List.nodup_singleton path

/-- If all answers have paths among given ones, a document that leaves no circle at any limit
ends.  Without a circle a longer chain would need more ancestors than there are relatives. -/
theorem Passage.ends_of_not_circular
    {resolver : ImportResolver}
    {paths : List String}
    {subject : Subject}
    {mergesParents merge : Option Bool}
    {questions : List Question}
    {state : Traversal}
    {ref : ModelRef}
    (passage : Passage resolver (Traversal.start subject mergesParents) questions state)
    (declared : ∀ question ∈ questions, question.Declared)
    (within : resolver.Within paths)
    (present : state.Has ref)
    (acyclic : ∀ depth,
      ¬(outcome (document resolver depth ref merge) state).2.Circular) :
    Ends resolver ref merge state := by
  let bound := (subject.relatives resolver (filesOf subject paths)).length
  have sound := passage.sound (.start subject mergesParents)
  refine ⟨bound + 1, ?_⟩
  rcases sound.settled_or_climbs merge present with settled | climbs
  · exact settled
  · obtain ⟨more, documenting, moreDeclared⟩ :=
      sound.passage_document resolver (bound + 1) merge present
    have whole := passage.trans documenting
    have confined := (confined_start resolver subject mergesParents paths).passage within
      (fun path member => List.mem_cons_of_mem _ (List.mem_map_of_mem member)) whole
      (fun question member => (List.mem_append.mp member).elim
        (declared question) (moreDeclared question))
    have wholeSound := whole.sound (.start subject mergesParents)
    have climbs_le := climbs.count_le wholeSound (acyclic (bound + 1))
    have ancestors_le := confined.count_le wholeSound
    omega

end Traversal
end ContractDoc
