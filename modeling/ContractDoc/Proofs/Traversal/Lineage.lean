import ContractDoc.Proofs.Traversal.Termination

/-!
# Lineages

A model keeps the lineage of the child for which it was built, although other children
may share it later.  If the resolver is canonical, the lineage holds the files on
a chain of parents from the root to the contract of the model.  A parent that is
refused for its lineage therefore ends a chain on which a file occurs twice, and
a contract with a flat document can fail for this cause only.
-/

namespace ContractDoc

/-- The files of contracts in order.  A contract without a path has none. -/
def Subject.files (chain : List Subject) : List String :=
  chain.filterMap fun subject => nonempty? subject.filePath

theorem Subject.files_singleton (subject : Subject) :
    files [subject] = (nonempty? subject.filePath).toList := by
  unfold files
  cases path_eq : nonempty? subject.filePath with
  | none => exact List.filterMap_cons_none path_eq
  | some path => exact List.filterMap_cons_some path_eq

/-- A chain of parents leads from the origin to a contract, through the files of
a lineage. -/
def Subject.Descent
    (resolver : ImportResolver)
    (origin subject : Subject)
    (lineage : List String) : Prop :=
  ∃ chain, (origin :: chain).IsChain (InheritsFrom resolver) ∧
    (origin :: chain).getLast? = some subject ∧ files (origin :: chain) = lineage

/-- A failure reports the files of a chain of parents on which a file occurs twice. -/
def Failure.ReportsCircle
    (resolver : ImportResolver)
    (origin : Subject)
    (failure : Failure) : Prop :=
  ∃ chain, (origin :: chain).IsChain (Subject.InheritsFrom resolver) ∧
    ¬(Subject.files (origin :: chain)).Nodup ∧
      failure = .circularInheritance (Subject.files (origin :: chain))

namespace Subject.Descent

variable
  {resolver : ImportResolver}
  {origin child : Subject}
  {lineage : List String}

/-- Every contract leads to itself. -/
theorem refl (resolver : ImportResolver) (origin : Subject) :
    Descent resolver origin origin (files [origin]) :=
  ⟨[], List.isChain_singleton origin, rfl, rfl⟩

/-- A chain is continued by a parent of its last contract. -/
theorem parent
    {parent : Subject}
    (descent : Descent resolver origin child lineage)
    (inherits : child.InheritsFrom resolver parent) :
    Descent resolver origin parent (lineage ++ files [parent]) := by
  obtain ⟨chain, isChain, last, rfl⟩ := descent
  refine ⟨chain ++ [parent], ?_, ?_, ?_⟩
  · rw [← List.cons_append]
    apply isChain.append (List.isChain_singleton parent)
    intro former isFormer latter isLatter
    obtain rfl : child = former := Option.some.inj (last.symm.trans isFormer)
    obtain rfl : parent = latter := Option.some.inj isLatter
    exact inherits
  · rw [← List.cons_append, List.getLast?_concat]
  · unfold files
    rw [← List.cons_append, List.filterMap_append]

/-- All files of a lineage have paths. -/
theorem path_ne
    {path : String}
    (descent : Descent resolver origin child lineage)
    (member : path ∈ lineage) :
    path ≠ "" := by
  obtain ⟨chain, _, _, rfl⟩ := descent
  obtain ⟨subject, _, path_eq⟩ := List.mem_filterMap.mp member
  simpa using (Option.filter_eq_some_iff.mp path_eq).2

/-- A parent whose file occurs in the lineage of its child closes a circle. -/
theorem reportsCircle
    {name : String}
    {resolved : ResolvedImport}
    (descent : Descent resolver origin child lineage)
    (inherits : child.InheritsFrom resolver (.ofParent name resolved))
    (inLineage : resolved.path ∈ lineage) :
    (Failure.circularInheritance (lineage ++ [resolved.path])).ReportsCircle resolver
      origin := by
  have files_eq : files [.ofParent name resolved] = [resolved.path] := by
    rw [files_singleton]
    simp [ofParent, nonempty?, descent.path_ne inLineage]
  obtain ⟨chain, isChain, _, chain_eq⟩ := descent.parent inherits
  rw [files_eq] at chain_eq
  refine ⟨chain, isChain, ?_, ?_⟩
  · rw [chain_eq]
    intro distinct
    exact (List.nodup_append.mp distinct).2.2 _ inLineage _ List.mem_cons_self rfl
  · rw [chain_eq]

end Subject.Descent

/-- The lineage of a file that does not occur in the one of its descendants. -/
theorem Model.extendLineage_of_notMem
    {subject : Subject}
    {lineage : List String}
    (absent : ∀ path ∈ subject.filePath, path ∉ lineage) :
    extendLineage lineage subject.filePath = lineage ++ Subject.files [subject] := by
  unfold extendLineage
  rw [Subject.files_singleton]
  cases path_eq : nonempty? subject.filePath with
  | none => simp
  | some path =>
      have notMem := absent path (Option.filter_eq_some_iff.mp path_eq).1
      simp [notMem]

namespace Traversal

/-! ## States that are reached -/

/-- A state is reached from a fresh root by questions for declared parents. -/
def Reached (resolver : ImportResolver) (origin : Subject) (state : Traversal) : Prop :=
  ∃ mergesParents questions,
    Passage resolver (start origin mergesParents) questions state ∧
      ∀ question ∈ questions, question.Declared

namespace Reached

variable
  {resolver : ImportResolver}
  {origin : Subject}
  {state after : Traversal}

theorem start (resolver : ImportResolver) (origin : Subject) (mergesParents : Option Bool) :
    Reached resolver origin (Traversal.start origin mergesParents) :=
  ⟨mergesParents, [], .start, List.forall_mem_nil _⟩

/-- From a state that is reached one may go on. -/
theorem passage
    {questions : List Question}
    (reached : Reached resolver origin state)
    (passage : Passage resolver state questions after)
    (declared : ∀ question ∈ questions, question.Declared) :
    Reached resolver origin after := by
  obtain ⟨mergesParents, earlier, earlierPassage, earlierDeclared⟩ := reached
  exact ⟨mergesParents, _, earlierPassage.trans passage,
    List.forall_mem_append.mpr ⟨earlierDeclared, declared⟩⟩

theorem sound (reached : Reached resolver origin state) : state.Sound := by
  obtain ⟨mergesParents, _, passage, _⟩ := reached
  exact passage.sound (.start origin mergesParents)

theorem answered (reached : Reached resolver origin state) : Answered resolver state := by
  obtain ⟨mergesParents, _, passage, _⟩ := reached
  exact (Answered.start origin mergesParents).passage passage

/-- A question for a declared parent leads to a state that is reached. -/
theorem parent
    {ref : ModelRef}
    {importPath name : String}
    {result : Except Failure ModelRef}
    (reached : Reached resolver origin state)
    (present : state.Has ref)
    (declares : (state.model ref).subject.Declares name importPath)
    (asks : outcome (Traversal.parent resolver ref importPath name) state = (result, after)) :
    Reached resolver origin after := by
  refine reached.passage (.of_parent present asks) ?_
  intro question member
  rw [List.mem_singleton.mp member]
  exact declares

end Reached

/-- The contracts of all models descend from the origin through the files of their
lineages. -/
def Descends (resolver : ImportResolver) (origin : Subject) (state : Traversal) : Prop :=
  ∀ ref, state.Has ref →
    Subject.Descent resolver origin (state.model ref).subject (state.model ref).lineage

namespace Descends

variable
  {resolver : ImportResolver}
  {origin : Subject}
  {before after : Traversal}

/-- Models that are there keep their contracts and lineages, so only new ones count. -/
theorem of_grows
    (descends : Descends resolver origin before)
    (grows : Grows before after)
    (built : ∀ ref, after.Has ref → ¬before.Has ref →
      Subject.Descent resolver origin (after.model ref).subject (after.model ref).lineage) :
    Descends resolver origin after := by
  intro ref present
  by_cases was : before.Has ref
  · rw [grows.subject_eq was, grows.lineage_eq was]
    exact descends ref was
  · exact built ref present was

/-- At the start the root is the only model. -/
theorem start (resolver : ImportResolver) (origin : Subject) (mergesParents : Option Bool) :
    Descends resolver origin (Traversal.start origin mergesParents) := by
  intro ref present
  cases ref with
  | ancestor key => cases present
  | root =>
      have lineage_eq : (Model.fresh origin mergesParents []).lineage =
          Subject.files [origin] :=
        Model.extendLineage_of_notMem fun _ _ => List.not_mem_nil
      change Subject.Descent resolver origin origin (Model.fresh origin mergesParents []).lineage
      rw [lineage_eq]
      exact .refl resolver origin

/-- A question for a declared parent may build a model behind the lineage of its child. -/
theorem ask
    {question : Question}
    (descends : Descends resolver origin question.state)
    (canonical : resolver.Canonical)
    (answered : Answered resolver (question.after resolver))
    (present : question.Present)
    (declared : question.Declared) :
    Descends resolver origin (question.after resolver) := by
  have grows := grows_parent resolver question.importPath question.name present
  have asking := asking_parent resolver question.ref question.importPath question.name
    question.state
  refine descends.of_grows grows ?_
  intro ref refPresent absent
  rcases asking.kept_or_attached present with ⟨same, _⟩ | ⟨resolved, _, attached⟩
  · exact absurd ((same.has_iff ref).mp refPresent) absent
  · obtain rfl := ((attached.has_iff ref).mp refPresent).resolve_left absent
    have answer := answered.answer_of_recorded canonical attached.recorded
    have inherits := Subject.inheritsFrom_iff.mpr
      ⟨question.name, question.importPath, resolved, declared, answer, rfl⟩
    have lineage_eq :
        ((question.state.model question.ref).ofParent question.name resolved).lineage =
          (question.state.model question.ref).lineage ++
            Subject.files [.ofParent question.name resolved] := by
      apply Model.extendLineage_of_notMem
      rintro path ⟨⟩
      exact attached.notInLineage
    unfold Question.after
    rw [attached.model_new absent, lineage_eq]
    exact (descends question.ref present).parent inherits

end Descends

/-- In every state that is reached the lineages are those of chains of parents.  The models
change by questions only, and each question is for a parent of a model that descends from the
origin already. -/
theorem Reached.descends
    {resolver : ImportResolver}
    {origin : Subject}
    {state : Traversal}
    (reached : Reached resolver origin state)
    (canonical : resolver.Canonical) :
    Descends resolver origin state := by
  obtain ⟨mergesParents, questions, passage, declared⟩ := reached
  induction passage with
  | start => exact .start resolver origin mergesParents
  | @derive questions state ref α value plain passage present yields ih =>
      refine (ih declared).of_grows (grows_derive present value) ?_
      intro other otherPresent absent
      exact absurd (((sameModels_derive present value).has_iff other).mp otherPresent) absent
  | ask question passage present ih =>
      have answered := (Answered.start origin mergesParents).passage (passage.ask question present)
      obtain ⟨earlier, asked⟩ := List.forall_mem_append.mp declared
      exact (ih earlier).ask canonical answered present (asked question List.mem_cons_self)

/-! ## Failures of contracts with flat documents -/

section Failures

variable
  {resolver : ImportResolver}
  {origin : Subject}

/-- A named model that asks for a declared parent, whose import is resolved, is refused
only for a circle. -/
theorem Reached.reportsCircle_of_parent
    {before after : Traversal}
    {ref : ModelRef}
    {importPath name : String}
    {failure : Failure}
    {resolved : ResolvedImport}
    {ownName : String}
    (reached : Reached resolver origin before)
    (canonical : resolver.Canonical)
    (present : before.Has ref)
    (declares : (before.model ref).subject.Declares name importPath)
    (answer : (resolver importPath (before.model ref).subject.filePath).result = .ok resolved)
    (named : (before.model ref).subject.plainName = .ok ownName)
    (refuses : outcome (Traversal.parent resolver ref importPath name) before =
      (.error failure, after)) :
    failure.ReportsCircle resolver origin := by
  have asking := asking_parent resolver ref importPath name before
  rw [refuses] at asking
  cases asking with
  | unresolved unknown resolving =>
      cases resolving with
      | failed _ fails =>
          rw [answer] at fails
          cases fails
  | @circular found _ unknown resolving inLineage =>
      have later := reached.parent present declares refuses
      have found_eq := later.answered.answer_of_recorded canonical resolving.get?_resolved
      have inherits := Subject.inheritsFrom_iff.mpr
        ⟨name, importPath, found, declares, found_eq, rfl⟩
      exact (reached.descends canonical ref present).reportsCircle inherits inLineage
  | @unnamed found middle _ _ unknown resolving notInLineage absent fails =>
      have same := resolving.sameModels
      have sound := reached.sound.of_sameModels same resolving.grows
        (resolving.truthful reached.sound.truthful)
      have name_eq := sound.derive_result ((same.has_iff ref).mpr present)
        Subject.yields_name fails
      rw [same.subject_eq present, named] at name_eq
      cases name_eq

/-- Inheriting from declared parents with flat documents fails for a circle only, if
making the documents of the parents does. -/
theorem Inheriting.reportsCircle
    {depth : Nat}
    {ref : ModelRef}
    {entries : Entries String (Option String)}
    {inherited : Sections}
    {before after : Traversal}
    {result : Except Failure Sections}
    {failure : Failure}
    (inheriting : Inheriting resolver (fun parentRef => document resolver depth parentRef none)
      ref entries inherited before result after)
    (canonical : resolver.Canonical)
    (reached : Reached resolver origin before)
    (present : before.Has ref)
    (flat : ∃ document, (before.model ref).subject.flatten resolver (depth + 1) = .ok document)
    (declared : ∀ name path, (name, some path) ∈ entries →
      (before.model ref).subject.Declares name path)
    (documents : ∀ {ancestor state failure after}, Reached resolver origin state →
      state.Has (.ancestor ancestor) →
        (∃ document, (state.model (.ancestor ancestor)).subject.flatten resolver depth =
          .ok document) →
          outcome (document resolver depth (.ancestor ancestor) none) state =
            (.error failure, after) →
              failure.ReportsCircle resolver origin)
    (fails : result = .error failure) :
    failure.ReportsCircle resolver origin := by
  induction inheriting with
  | done => cases fails
  | skipped more ih =>
      exact ih reached present flat
        (fun name path member => declared name path (List.mem_cons_of_mem _ member)) fails
  | @refused name path rest inherited before after _ refuses =>
      obtain rfl := Except.error.inj fails
      have declares := declared name path List.mem_cons_self
      obtain ⟨⟨own, own_eq⟩, parents⟩ := Subject.exists_flatten_succ_iff.mp flat
      obtain ⟨resolved, answer, _⟩ := parents name path declares
      exact reached.reportsCircle_of_parent canonical present declares answer
        (Subject.plainName_of_plainDocument own_eq) refuses
  | @broken name path rest inherited before middle after parentRef _ asks breaks =>
      obtain rfl := Except.error.inj fails
      have declares := declared name path List.mem_cons_self
      have asked := reached.parent present declares asks
      have grown := (Passage.of_parent present asks).grows
      obtain ⟨ancestor, rfl, linked⟩ := linked_of_parent present asks
      obtain ⟨found, found_eq, subject_eq⟩ :=
        asked.answered.subject_of_linked canonical asked.sound (grown.has present) linked
      rw [grown.subject_eq present] at found_eq
      obtain ⟨_, parents⟩ := Subject.exists_flatten_succ_iff.mp flat
      obtain ⟨resolved, answer, parentFlat⟩ := parents name path declares
      obtain rfl : resolved = found := Except.ok.inj (answer.symm.trans found_eq)
      apply documents asked (reached.sound.has_of_parent present asks) _ breaks
      rw [subject_eq]
      exact parentFlat
  | @merged name path rest inherited before middle late after parentRef parentDocument
      result asks documented more ih =>
      have declares := declared name path List.mem_cons_self
      have asked := reached.parent present declares asks
      obtain ⟨questions, documenting, allDeclared⟩ := asked.sound.passage_document resolver
        depth none (reached.sound.has_of_parent present asks)
      rw [documented] at documenting
      have grown := (Passage.of_parent present asks).grows.trans documenting.grows
      apply ih (asked.passage documenting allDeclared) (grown.has present) _ _ fails
      · rw [grown.subject_eq present]
        exact flat
      · intro other otherPath member
        rw [grown.subject_eq present]
        exact declared other otherPath (List.mem_cons_of_mem _ member)

/-- A contract that has a flat document fails for a circle only. -/
theorem Reached.reportsCircle_of_document
    {depth : Nat}
    {ref : ModelRef}
    {merge : Option Bool}
    {before after : Traversal}
    {failure : Failure}
    (reached : Reached resolver origin before)
    (canonical : resolver.Canonical)
    (present : before.Has ref)
    (flat : ∃ document, (before.model ref).subject.flatten resolver depth = .ok document)
    (fails : outcome (Traversal.document resolver depth ref merge) before =
      (.error failure, after)) :
    failure.ReportsCircle resolver origin := by
  induction depth generalizing before after ref merge failure with
  | zero =>
      obtain ⟨document, flat⟩ := flat
      cases flat
  | succ depth ih =>
      obtain ⟨⟨own, own_eq⟩, _⟩ := Subject.exists_flatten_succ_iff.mp flat
      have parents_eq := Subject.plainParents_of_plainDocument own_eq
      have sound := reached.sound
      have documenting := documenting_document resolver ref merge depth before
      rw [fails] at documenting
      generalize result_eq : (Except.error failure : Except Failure Document) = result
        at documenting
      cases documenting with
      | underived breaks =>
          have derived := sound.derive_result present Subject.yields_document breaks
          rw [own_eq] at derived
          cases derived
      | alone derives unmerged => cases result_eq
      | @unparented _ _ middle _ derives merging breaks =>
          have same := sameModels_derive present Subject.document
          have middleSound := sound.derive present Subject.yields_document
          rw [derives] at same middleSound
          have derived := middleSound.derive_result ((same.has_iff ref).mpr present)
            Subject.yields_parents breaks
          rw [same.subject_eq present, parents_eq] at derived
          cases derived
      | @inherited _ _ ready _ parents sections derives merging lists inheriting =>
          obtain ⟨passed, same, listed⟩ := sound.lists_parents present derives lists
          have readied := reached.passage (passed resolver) (List.forall_mem_nil _)
          cases sections with
          | ok sections => cases result_eq
          | error cause =>
              obtain rfl := Except.error.inj result_eq
              apply inheriting.reportsCircle canonical readied ((same.has_iff ref).mpr present)
                _ _ (fun asked parentPresent parentFlat breaks =>
                  ih asked parentPresent parentFlat breaks) rfl
              · rw [same.subject_eq present]
                exact flat
              · intro name path member
                rw [same.subject_eq present]
                exact (Subject.declares_iff listed name path).mpr member

end Failures

end Traversal
end ContractDoc
