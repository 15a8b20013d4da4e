import ContractDoc.Proofs.Computation
import ContractDoc.Proofs.Traversal.Replay

/-!
# The course of a traversal

The course of a traversal lists its single operations: derivations, the resolution of
imports, and the building and linking of models.  Each derivation comes with the model
that it is for and the notices that it reports, so a course tells for every model how
often each of its values was computed.

A value that a model knows was computed once in every course.  A value that was computed
and is not known cannot be computed from the source.
-/

namespace ContractDoc

/-- What a model has been asked for: the answer to a question about its contract, or the
document of its contract alone. -/
inductive Wish where
  | own (getter : Getter)
  | document
  deriving DecidableEq, Repr

namespace Wish

/-- The type of what is derived. -/
abbrev Result : Wish → Type
  | own getter => getter.Result
  | document => Document

/-- Derives what is wished from the source of a contract. -/
def derive : (wish : Wish) → Subject → Derive wish.Result
  | own getter => getter.derive
  | document => Subject.document

/-- Nothing is computed in vain for a wish. -/
theorem thrifty (wish : Wish) (subject : Subject) :
    subject.Thrifty 3 (wish.derive subject) := by
  cases wish with
  | document => exact subject.thrifty_document
  | own getter =>
      cases getter with
      | tree => exact subject.thrifty_tree.mono (by decide)
      | contract => exact subject.thrifty_contract.mono (by decide)
      | name => exact subject.thrifty_name.mono (by decide)
      | pragma => exact subject.thrifty_pragma.mono (by decide)
      | imports => exact subject.thrifty_imports.mono (by decide)
      | parents => exact subject.thrifty_parents
      | constructor => exact subject.thrifty_constructor
      | contractTags => exact subject.thrifty_contractTags
      | contractInfo => exact subject.thrifty_contractInfo
      | sourceInfo => exact subject.thrifty_sourceInfo.mono (by decide)
      | events => exact subject.thrifty_events
      | functions => exact subject.thrifty_functions
      | constantFunctions => exact subject.thrifty_constantFunctions

end Wish

namespace Traversal

/-- The notices of one derivation, with the model that it is for. -/
structure Report where
  ref : ModelRef
  notices : List Notice

/-- What a model reports when a wish is derived from it. -/
def reportOf (state : Traversal) (ref : ModelRef) (wish : Wish) : Report where
  ref := ref
  notices := (outcome (wish.derive (state.model ref).subject)
    ⟨(state.model ref).cache, []⟩).2.notices

/-- How often a value of a model was computed. -/
def computationsOf
    (reports : List Report)
    (ref : ModelRef)
    (derivation : Derivation) : Nat :=
  computations derivation ((reports.filter (·.ref = ref)).flatMap Report.notices)

/-- The course of a traversal from its start to a state, by its single operations, with
the reports of all derivations in order. -/
inductive Course
    (resolver : ImportResolver)
    (start : Traversal) : List Report → Traversal → Prop
  | start : Course resolver start [] start
  | derive {reports : List Report} {state : Traversal} {ref : ModelRef} (wish : Wish)
      (course : Course resolver start reports state)
      (present : state.Has ref) :
      Course resolver start (reports ++ [state.reportOf ref wish])
        (outcome (derive ref wish.derive) state).2
  | resolve {reports : List Report} {state : Traversal}
      (importPath : String) (importer : Option String)
      (course : Course resolver start reports state) :
      Course resolver start reports
        (outcome (resolveImport resolver importPath importer) state).2
  | notify {reports : List Report} {state : Traversal} (child name path : String)
      (course : Course resolver start reports state) :
      Course resolver start reports (state.notify [.loadingParent child name path])
  | build {reports : List Report} {state : Traversal} (ref : ModelRef) {name : String}
      {resolved : ResolvedImport}
      (course : Course resolver start reports state)
      (absent : ¬state.Has (.ancestor ⟨resolved.path, name⟩)) :
      Course resolver start reports (state.build ref name resolved)
  | link {reports : List Report} {state : Traversal} {ref : ModelRef} (key : ParentKey)
      (ancestor : AncestorKey)
      (course : Course resolver start reports state)
      (present : state.Has ref) :
      Course resolver start reports (state.link ref key ancestor)

/-! ## The accounts of all models -/

/-- The reports account for all that is known in a state, and come from models that are
there. -/
structure Accounted (reports : List Report) (state : Traversal) : Prop where
  account : ∀ {ref}, state.Has ref → ∀ derivation,
    (state.model ref).subject.Account derivation none
      (computationsOf reports ref derivation) ((state.model ref).cache.value? derivation)
  present : ∀ report ∈ reports, state.Has report.ref

/-- A derivation changes what its model knows, and nothing else of any model. -/
theorem model_derive
    {state : Traversal}
    {other : ModelRef}
    (present : state.Has other)
    (ref : ModelRef)
    (wish : Wish) :
    (outcome (Traversal.derive ref wish.derive) state).2.model other =
      if other = ref then
        { state.model ref with
          cache := (outcome (wish.derive (state.model ref).subject)
            ⟨(state.model ref).cache, []⟩).2.cache }
      else state.model other := by
  rw [outcome_derive, ← model_setModel present]
  cases other <;> rfl

theorem computationsOf_append
    (early late : List Report)
    (ref : ModelRef)
    (derivation : Derivation) :
    computationsOf (early ++ late) ref derivation =
      computationsOf early ref derivation + computationsOf late ref derivation := by
  simp [computationsOf]

/-- A model that reports nothing computes nothing. -/
theorem computationsOf_eq_zero
    {reports : List Report}
    {ref : ModelRef}
    (silent : ∀ report ∈ reports, report.ref ≠ ref)
    (derivation : Derivation) :
    computationsOf reports ref derivation = 0 := by
  have none_left : reports.filter (·.ref = ref) = [] := by
    simpa [List.filter_eq_nil_iff] using silent
  rw [computationsOf, none_left]
  rfl

namespace Accounted

variable
  {reports : List Report}
  {state next : Traversal}
  {ref : ModelRef}

/-- Nothing is known at the start. -/
theorem start (subject : Subject) (mergesParents : Option Bool) :
    Accounted [] (Traversal.start subject mergesParents) where
  account := by
    intro ref present derivation
    cases ref with
    | root => exact .idle
    | ancestor key => exact absurd present Bool.false_ne_true
  present := List.forall_mem_nil _

/-- The accounts stand as long as no model comes in or changes what it knows. -/
theorem of_kept
    (accounted : Accounted reports state)
    (has_iff : ∀ ref, next.Has ref ↔ state.Has ref)
    (subject_eq : ∀ ref, state.Has ref →
      (next.model ref).subject = (state.model ref).subject)
    (cache_eq : ∀ ref, state.Has ref → (next.model ref).cache = (state.model ref).cache) :
    Accounted reports next where
  account := by
    intro ref present derivation
    have was := (has_iff ref).mp present
    rw [subject_eq ref was, cache_eq ref was]
    exact accounted.account was derivation
  present := fun report member => (has_iff _).mpr (accounted.present report member)

/-- The accounts stand if the models are the same. -/
theorem of_eq
    (accounted : Accounted reports state)
    (root_eq : next.root = state.root)
    (ancestors_eq : next.ancestors = state.ancestors) :
    Accounted reports next := by
  have model_eq (ref : ModelRef) : next.model ref = state.model ref := by
    cases ref with
    | root => exact root_eq
    | ancestor key => simp [Traversal.model, root_eq, ancestors_eq]
  refine accounted.of_kept (SameModels.of_eq root_eq ancestors_eq).has_iff ?_ ?_
  · intro ref _
    rw [model_eq]
  · intro ref _
    rw [model_eq]

/-- All caches are truthful if the reports account for them. -/
theorem truthful
    (accounted : Accounted reports state)
    (present : state.Has ref) :
    (state.model ref).subject.Truthful (state.model ref).cache := by
  intro derivation value known
  have account := accounted.account present derivation
  rw [known] at account
  exact account.known_or_computed.resolve_left nofun

/-- A derivation accounts for what its model learns. -/
theorem derive
    (accounted : Accounted reports state)
    (wish : Wish)
    (present : state.Has ref) :
    Accounted (reports ++ [state.reportOf ref wish])
      (outcome (Traversal.derive ref wish.derive) state).2 := by
  have same := sameModels_derive present wish.derive
  refine ⟨?_, ?_⟩
  · intro other otherPresent derivation
    have was := (same.has_iff other).mp otherPresent
    rw [model_derive was, computationsOf_append]
    by_cases asked : other = ref
    · subst asked
      obtain ⟨reported, notices_eq, accounts⟩ :=
        wish.thrifty (state.model other).subject ⟨_, []⟩ (accounted.truthful was)
      have added : computationsOf [state.reportOf other wish] other derivation =
          computations derivation reported := by
        rw [List.nil_append] at notices_eq
        simp [computationsOf, reportOf, notices_eq]
      rw [if_pos rfl, added]
      exact (accounted.account was derivation).trans (accounts derivation).2
    · have silent : computationsOf [state.reportOf ref wish] other derivation = 0 := by
        apply computationsOf_eq_zero
        intro report member
        rw [List.mem_singleton.mp member]
        exact fun same => asked same.symm
      rw [if_neg asked, silent, Nat.add_zero]
      exact accounted.account was derivation
  · intro report member
    rw [same.has_iff]
    rcases List.mem_append.mp member with member | member
    · exact accounted.present report member
    · rw [List.mem_singleton.mp member]
      exact present

/-- A model that is built knows nothing and has reported nothing. -/
theorem build
    {name : String}
    {resolved : ResolvedImport}
    (accounted : Accounted reports state)
    (absent : ¬state.Has (.ancestor ⟨resolved.path, name⟩))
    (ref : ModelRef) :
    Accounted reports (state.build ref name resolved) := by
  refine ⟨?_, ?_⟩
  · intro other otherPresent derivation
    by_cases was : state.Has other
    · rw [model_build absent ref was]
      exact accounted.account was derivation
    · obtain rfl := ((has_build absent ref other).mp otherPresent).resolve_left was
      have silent : computationsOf reports (.ancestor ⟨resolved.path, name⟩) derivation = 0 := by
        apply computationsOf_eq_zero
        rintro report member same
        exact was (same ▸ accounted.present report member)
      rw [model_build_self, silent]
      exact .idle
  · intro report member
    exact (has_build absent ref _).mpr (.inl (accounted.present report member))

/-- Links do not matter for what models know. -/
theorem link
    (accounted : Accounted reports state)
    (present : state.Has ref)
    (key : ParentKey)
    (ancestor : AncestorKey) :
    Accounted reports (state.link ref key ancestor) := by
  have model_eq (other : ModelRef) (otherPresent : state.Has other) :
      (state.link ref key ancestor).model other =
        if other = ref then { state.model ref with
          parents := Entries.insert key ancestor (state.model ref).parents }
        else state.model other :=
    model_setModel otherPresent ref _
  refine accounted.of_kept (has_iff_of_keys_eq (keys_link present key ancestor)) ?_ ?_
  · intro other otherPresent
    rw [model_eq other otherPresent]
    split
    · next same => rw [same]
    · rfl
  · intro other otherPresent
    rw [model_eq other otherPresent]
    split
    · next same => rw [same]
    · rfl

end Accounted

namespace Course

variable
  {resolver : ImportResolver}
  {first state : Traversal}
  {reports : List Report}
  {ref : ModelRef}

/-- The reports of every course account for what is known at its end. -/
theorem accounted
    (course : Course resolver first reports state)
    (firstAccounted : Accounted [] first) :
    Accounted reports state := by
  induction course with
  | start => exact firstAccounted
  | derive wish course present ih => exact ih.derive wish present
  | @resolve reports state importPath importer course ih =>
      have resolving := resolving_resolveImport resolver importPath importer state
      generalize outcome (resolveImport resolver importPath importer) state = ended at resolving
      obtain ⟨result, after⟩ := ended
      cases resolving with
      | known found => exact ih
      | answered unknown answer => exact ih.of_eq rfl rfl
      | failed unknown answer => exact ih.of_eq rfl rfl
  | notify child name path course ih => exact ih.of_eq rfl rfl
  | build ref course absent ih => exact ih.build absent ref
  | link key ancestor course present ih => exact ih.link present key ancestor

/-- Asking for a parent continues a course. -/
theorem parent
    {importPath name : String}
    {result : Except Failure ModelRef}
    {after : Traversal}
    (course : Course resolver first reports state)
    (present : state.Has ref)
    (asks : outcome (Traversal.parent resolver ref importPath name) state = (result, after)) :
    ∃ continued, Course resolver first continued after := by
  have asking := asking_parent resolver ref importPath name state
  rw [asks] at asking
  have resolves {result middle}
      (resolving : Resolving resolver importPath (state.model ref).subject.filePath state
        result middle) :
      Course resolver first reports middle := by
    have resolved := course.resolve importPath (state.model ref).subject.filePath
    rwa [resolving.outcome_eq] at resolved
  have named {result} {middle after : Traversal}
      (resolving : Resolving resolver importPath (state.model ref).subject.filePath state
        result middle) {name : Except Failure String}
      (derives : outcome (Traversal.derive ref Subject.name) middle = (name, after)) :
      Course resolver first (reports ++ [middle.reportOf ref (.own .name)]) after := by
    have stays := (resolving.sameModels.has_iff ref).mpr present
    have derived := (resolves resolving).derive (.own .name) stays
    change Course resolver first _ (outcome (Traversal.derive ref Subject.name) middle).2
      at derived
    rwa [derives] at derived
  cases asking with
  | linked known => exact ⟨reports, course⟩
  | unresolved unknown resolving => exact ⟨reports, resolves resolving⟩
  | circular unknown resolving inLineage => exact ⟨reports, resolves resolving⟩
  | unnamed unknown resolving notInLineage absent fails => exact ⟨_, named resolving fails⟩
  | shared unknown resolving notInLineage shared =>
      have stays := (resolving.sameModels.has_iff ref).mpr present
      exact ⟨reports, (resolves resolving).link _ _ stays⟩
  | @built resolved middle derived child unknown resolving notInLineage absent derives =>
      have stays := (resolving.sameModels.has_iff ref).mpr present
      have same := (Alike.of_derive stays derives).sameModels
      have stillAbsent : ¬derived.Has (.ancestor ⟨resolved.path, name⟩) :=
        fun found => absent ((resolving.sameModels.has_iff _).mp ((same.has_iff _).mp found))
      have ready : SameModels derived (derived.notify [.loadingParent child name resolved.path]) :=
        .of_eq rfl rfl
      have readyAbsent := fun found => stillAbsent ((ready.has_iff _).mp found)
      have built := ((named resolving derives).notify child name resolved.path).build ref
        readyAbsent
      exact ⟨_, built.link _ _ ((has_build readyAbsent ref ref).mpr
        (.inl ((ready.has_iff ref).mpr ((same.has_iff ref).mpr stays))))⟩

/-- Inheriting continues a course if making the documents of parents does. -/
theorem inheriting
    {depth : Nat}
    {entries : Entries String (Option String)}
    {inherited : Sections}
    {result : Except Failure Sections}
    {after : Traversal}
    (course : Course resolver first reports state)
    (inheriting : Inheriting resolver (fun parentRef => document resolver depth parentRef none)
      ref entries inherited state result after)
    (documents : ∀ {parentRef reports result} {state after : Traversal},
      Course resolver first reports state → state.Sound → state.Has parentRef →
      outcome (document resolver depth parentRef none) state = (result, after) →
        ∃ continued, Course resolver first continued after)
    (sound : state.Sound)
    (present : state.Has ref) :
    ∃ continued, Course resolver first continued after := by
  induction inheriting generalizing reports with
  | done => exact ⟨reports, course⟩
  | skipped more ih => exact ih course sound present
  | refused refuses => exact course.parent present refuses
  | broken asks breaks =>
      obtain ⟨asked, askedCourse⟩ := course.parent present asks
      exact documents askedCourse (sound.sound_grows_parent present asks).1
        (sound.has_of_parent present asks) breaks
  | merged asks made more ih =>
      obtain ⟨asked, askedCourse⟩ := course.parent present asks
      obtain ⟨middleSound, grown⟩ := sound.sound_grows_parent present asks
      have parentPresent := sound.has_of_parent present asks
      obtain ⟨_, madeCourse⟩ := documents askedCourse middleSound parentPresent made
      obtain ⟨lateSound, lateGrown⟩ := middleSound.sound_grows_document parentPresent made
      exact ih madeCourse lateSound (lateGrown.has (grown.has present))

/-- Making a document continues a course. -/
theorem document
    {depth : Nat}
    {merge : Option Bool}
    {result : Except Failure Document}
    {after : Traversal}
    (course : Course resolver first reports state)
    (sound : state.Sound)
    (present : state.Has ref)
    (documents : outcome (Traversal.document resolver depth ref merge) state =
      (result, after)) :
    ∃ continued, Course resolver first continued after := by
  induction depth generalizing ref merge state reports result after with
  | zero =>
      obtain ⟨rfl, rfl⟩ := Prod.mk.inj documents
      exact ⟨reports, course⟩
  | succ depth ih =>
      have documenting := documenting_document resolver ref merge depth state
      rw [documents] at documenting
      have ownCourse {own middle}
          (derives : outcome (Traversal.derive ref Subject.document) state = (own, middle)) :
          Course resolver first (reports ++ [state.reportOf ref .document]) middle := by
        have derived := course.derive .document present
        change Course resolver first _ (outcome (Traversal.derive ref Subject.document) state).2
          at derived
        rwa [derives] at derived
      have listedCourse {own middle parents ready}
          (derives : outcome (Traversal.derive ref Subject.document) state = (own, middle))
          (lists : outcome (Traversal.derive ref Subject.parents) middle = (parents, ready)) :
          Course resolver first (reports ++ [state.reportOf ref .document] ++
            [middle.reportOf ref (.own .parents)]) ready := by
        have stays := (Alike.of_derive present derives).has present
        have derived := (ownCourse derives).derive (.own .parents) stays
        change Course resolver first _ (outcome (Traversal.derive ref Subject.parents) middle).2
          at derived
        rwa [lists] at derived
      cases documenting with
      | underived fails => exact ⟨_, ownCourse fails⟩
      | alone derives unmerged => exact ⟨_, ownCourse derives⟩
      | unparented derives merging fails => exact ⟨_, listedCourse derives fails⟩
      | @inherited own middle ready after parents result derives merging lists inheriting =>
          obtain ⟨passed, same, _⟩ := sound.lists_parents present derives lists
          exact (listedCourse derives lists).inheriting inheriting ih
            ((passed resolver).sound sound) ((same.has_iff ref).mpr present)

end Course

end Traversal
end ContractDoc
