import ContractDoc.Proofs.Traversal.Course

/-!
# Independence of history

A root can be asked about its own contract and for documents, in any order and again
after failures.  The order does not matter: every call has the result that it has on a
fresh root, and no value is computed twice.

After any number of such calls the traversal is where a single document with the members
of all parents leaves it: the document with the highest limit so far, or nothing at all.
-/

namespace ContractDoc
namespace Traversal

/-- A call on the root: a question about its contract, or one for a document with a limit
to the levels of parents. -/
inductive RootCall where
  | own (getter : Getter)
  | document (depth : Nat) (merge : Option Bool)
  deriving DecidableEq, Repr

/-- A call on the root as a call on a model. -/
def RootCall.toCall : RootCall → Call
  | own getter => .own .root getter
  | document depth merge => .document depth .root merge

/-- The state after calls on the root. -/
def afterRootCalls
    (resolver : ImportResolver)
    (start : Traversal)
    (calls : List RootCall) : Traversal :=
  afterTurns start (calls.map fun call => ⟨resolver, call.toCall⟩)

variable
  {resolver : ImportResolver}
  {fresh state : Traversal}

/-- A state is where a single document leaves a fresh one. -/
structure Revisited (resolver : ImportResolver) (fresh state : Traversal) : Prop where
  sound : state.Sound
  alike : ∃ depth, Alike (outcome (document resolver depth .root (some true)) fresh).2 state

namespace Revisited

/-- Nothing has happened yet. -/
theorem start (freshSound : fresh.Sound) : Revisited resolver fresh fresh :=
  ⟨freshSound, 0, .refl fresh⟩

theorem covers (revisited : Revisited resolver fresh state) (freshSound : fresh.Sound) :
    Covers fresh state := by
  obtain ⟨depth, alike⟩ := revisited.alike
  rcases ran : outcome (document resolver depth .root (some true)) fresh with ⟨result, after⟩
  rw [ran] at alike
  have grown := (freshSound.sound_grows_document (has_root fresh) ran).2
  exact (Covers.of_grows grown).trans alike.covers

/-- States that are alike are left by the same document. -/
theorem of_alike
    {next : Traversal}
    (revisited : Revisited resolver fresh state)
    (alike : Alike state next)
    (sound : next.Sound) :
    Revisited resolver fresh next := by
  obtain ⟨depth, before⟩ := revisited.alike
  exact ⟨sound, depth, before.trans alike⟩

/-- A document with the members of parents has the result that it has on a fresh root. -/
theorem mergedDocument
    {depth : Nat}
    {result : Except Failure Document}
    {after : Traversal}
    (revisited : Revisited resolver fresh state)
    (freshSound : fresh.Sound)
    (documents : outcome (document resolver depth .root (some true)) fresh =
      (result, after)) :
    ∃ next, outcome (document resolver depth .root (some true)) state = (result, next) ∧
      Revisited resolver fresh next := by
  obtain ⟨earlier, alike⟩ := revisited.alike
  rcases attempted : outcome (document resolver earlier .root (some true)) fresh with
    ⟨attempt, reached⟩
  rw [attempted] at alike
  have behind : Behind attempt reached state := by
    cases attempt with
    | ok document => exact alike.covers
    | error failure => exact alike
  obtain ⟨next, again, resumes⟩ := freshSound.document_again revisited.sound (has_root fresh)
    behind attempted documents
  have nextSound := (revisited.sound.sound_grows_document (has_root state) again).1
  refine ⟨next, again, ?_⟩
  rcases resumes with ⟨added, _⟩ | ⟨_, caughtUp⟩
  · exact revisited.of_alike added nextSound
  · exact ⟨nextSound, depth, by rwa [documents]⟩

/-- A document has the result that it has on a fresh root. -/
theorem document
    (revisited : Revisited resolver fresh state)
    (freshSound : fresh.Sound)
    (depth : Nat)
    (merge : Option Bool) :
    (outcome (Traversal.document resolver depth .root merge) state).1 =
        (outcome (Traversal.document resolver depth .root merge) fresh).1 ∧
      Revisited resolver fresh
        (outcome (Traversal.document resolver depth .root merge) state).2 := by
  cases depth with
  | zero => exact ⟨rfl, revisited⟩
  | succ depth =>
      have covers := revisited.covers freshSound
      rcases covers.settledAlone_or_prepared resolver merge freshSound revisited.sound
          (has_root fresh) with
        ⟨result, after, next, settled, settledAgain⟩ | ⟨merging, _⟩
      · have again := settledAgain.outcome_eq
          (fun parentRef => Traversal.document resolver depth parentRef none)
        rw [← document_succ] at again
        have nextSound := (revisited.sound.sound_grows_document (has_root state) again).1
        rw [document_succ, settled.outcome_eq, settledAgain.outcome_eq]
        exact ⟨rfl, revisited.of_alike settledAgain.alike nextSound⟩
      · have mergingAgain := merging
        rw [← (covers.model_grows (has_root fresh)).mergesParents_eq] at mergingAgain
        rw [document_eq_of_merging (has_root fresh) merging,
          document_eq_of_merging (has_root state) mergingAgain]
        rcases documents : outcome (Traversal.document resolver (depth + 1) .root (some true))
          fresh with ⟨result, after⟩
        obtain ⟨next, again, nextRevisited⟩ := revisited.mergedDocument freshSound documents
        rw [again]
        exact ⟨rfl, nextRevisited⟩

/-- Every call has the result that it has on a fresh root. -/
theorem call
    (revisited : Revisited resolver fresh state)
    (freshSound : fresh.Sound)
    (call : RootCall) :
    (outcome (call.toCall.step resolver) state).1 =
        (outcome (call.toCall.step resolver) fresh).1 ∧
      Revisited resolver fresh (outcome (call.toCall.step resolver) state).2 := by
  cases call with
  | document depth merge => exact revisited.document freshSound depth merge
  | own getter =>
      have subject_eq := ((revisited.covers freshSound).model_grows (has_root fresh)).subject_eq
      change (outcome (derive .root getter.derive) state).1 =
          (outcome (derive .root getter.derive) fresh).1 ∧
        Revisited resolver fresh (outcome (derive .root getter.derive) state).2
      rcases derives : outcome (derive .root getter.derive) state with ⟨result, next⟩
      rcases freshly : outcome (derive .root getter.derive) fresh with ⟨freshResult, after⟩
      have result_eq := revisited.sound.derive_result (has_root state) getter.yields derives
      have freshResult_eq := freshSound.derive_result (has_root fresh) getter.yields freshly
      have nextSound := revisited.sound.derive (has_root state) getter.yields
      rw [derives] at nextSound
      refine ⟨?_, revisited.of_alike (.of_derive (has_root state) derives) nextSound⟩
      rw [result_eq, freshResult_eq, subject_eq]

/-- Calls on the root leave a state where a single document leaves it. -/
theorem calls
    (revisited : Revisited resolver fresh state)
    (freshSound : fresh.Sound)
    (calls : List RootCall) :
    Revisited resolver fresh (afterRootCalls resolver state calls) := by
  induction calls generalizing state with
  | nil => exact revisited
  | cons call calls ih => exact ih (revisited.call freshSound call).2

end Revisited

/-- Calls on the root continue a course. -/
theorem Course.rootCalls
    {reports : List Report}
    (course : Course resolver fresh reports state)
    (sound : state.Sound)
    (calls : List RootCall) :
    ∃ continued, Course resolver fresh continued (afterRootCalls resolver state calls) := by
  induction calls generalizing state reports with
  | nil => exact ⟨reports, course⟩
  | cons call calls ih =>
      rcases ran : outcome (call.toCall.step resolver) state with ⟨result, next⟩
      have stepped : (∃ continued, Course resolver fresh continued next) ∧ next.Sound := by
        cases call with
        | own getter =>
            have derived := course.derive (.own getter) (has_root state)
            have nextSound := sound.derive (has_root state) getter.yields
            change outcome (Traversal.derive .root getter.derive) state = (result, next) at ran
            change Course resolver fresh _
              (outcome (Traversal.derive .root getter.derive) state).2 at derived
            rw [ran] at derived nextSound
            exact ⟨⟨_, derived⟩, nextSound⟩
        | document depth merge =>
            exact ⟨course.document sound (has_root state) ran,
              (sound.sound_grows_document (has_root state) ran).1⟩
      obtain ⟨⟨more, moreCourse⟩, nextSound⟩ := stepped
      have after_eq : afterRootCalls resolver state (call :: calls) =
          afterRootCalls resolver next calls := by
        change afterRootCalls resolver (outcome (call.toCall.step resolver) state).2 calls = _
        rw [ran]
      rw [after_eq]
      exact ih moreCourse nextSound

/-- After any calls on the root, failing ones included, every call on it has the result
that it has on a fresh root.  The traversal has a course, and in each of its courses
every value that a model knows was computed once, and nothing is known of a value whose
computation fails: all computations of values that are not known have failed. -/
theorem results_independent_of_history
    (resolver : ImportResolver)
    (subject : Subject)
    (mergesParents : Option Bool)
    (calls : List RootCall) :
    let fresh := start subject mergesParents
    let state := afterRootCalls resolver fresh calls
    (∀ call : RootCall, (outcome (call.toCall.step resolver) state).1 =
      (outcome (call.toCall.step resolver) fresh).1) ∧
    (∃ reports, Course resolver fresh reports state) ∧
    ∀ reports, Course resolver fresh reports state → ∀ ref, state.Has ref → ∀ derivation,
      ((state.model ref).cache.has derivation = true →
        computationsOf reports ref derivation = 1) ∧
      (∀ failure, (state.model ref).subject.plain derivation = .error failure →
        (state.model ref).cache.has derivation = false) ∧
      ((state.model ref).cache.has derivation = false →
        0 < computationsOf reports ref derivation →
          ∃ failure, (state.model ref).subject.plain derivation = .error failure) := by
  intro fresh state
  have freshSound : fresh.Sound := .start subject mergesParents
  have unvisited : Revisited resolver fresh fresh := .start freshSound
  have revisited := unvisited.calls freshSound calls
  refine ⟨fun call => (revisited.call freshSound call).1, Course.start.rootCalls freshSound calls,
    ?_⟩
  intro reports course ref present derivation
  have account := (course.accounted (.start subject mergesParents)).account present derivation
  unfold Cache.has
  generalize computationsOf reports ref derivation = count at account ⊢
  generalize (state.model ref).cache.value? derivation = known at account ⊢
  cases account with
  | idle => simp
  | computed succeeds => simp [succeeds]
  | failed count fails => simp [fails]

end Traversal
end ContractDoc
