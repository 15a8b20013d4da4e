import ContractDoc.Proofs.Traversal.Alike

/-!
# Making a document again

A document that is made a second time follows the links of the first time as far as
these lead.  Where the first attempt was refused the second one is refused for the same
reason; where the first one stopped at its limit the second one, with a higher limit,
goes on as if the first one had not been made.  So making a document leaves nothing
behind that changes the result of a later attempt.
-/

namespace ContractDoc
namespace Traversal

variable
  {resolver : ImportResolver}
  {ref : ModelRef}
  {merge : Option Bool}
  {depth : Nat}
  {before after other : Traversal}

/-- Asking for a parent keeps a traversal sound and makes it grow. -/
theorem Sound.sound_grows_parent
    {importPath name : String}
    {result : Except Failure ModelRef}
    (sound : before.Sound)
    (present : before.Has ref)
    (asks : outcome (Traversal.parent resolver ref importPath name) before =
      (result, after)) :
    after.Sound ∧ Grows before after := by
  have passage := Passage.of_parent present asks
  exact ⟨passage.sound sound, passage.grows⟩

/-- Making a document keeps a traversal sound and makes it grow. -/
theorem Sound.sound_grows_document
    {result : Except Failure Document}
    (sound : before.Sound)
    (present : before.Has ref)
    (documents : outcome (document resolver depth ref merge) before = (result, after)) :
    after.Sound ∧ Grows before after := by
  obtain ⟨questions, passage, _⟩ := sound.passage_document resolver depth merge present
  rw [documents] at passage
  exact ⟨passage.sound sound, passage.grows⟩

/-- Inheriting makes a traversal grow. -/
theorem Inheriting.grows
    {entries : Entries String (Option String)}
    {inherited : Sections}
    {result : Except Failure Sections}
    (inheriting : Inheriting resolver (fun parentRef => document resolver depth parentRef none)
      ref entries inherited before result after)
    (sound : before.Sound)
    (present : before.Has ref) :
    Grows before after := by
  induction inheriting with
  | done => exact .refl _
  | skipped more ih => exact ih sound present
  | refused refuses => exact (sound.sound_grows_parent present refuses).2
  | broken asks breaks =>
      obtain ⟨middleSound, grown⟩ := sound.sound_grows_parent present asks
      have parentPresent := sound.has_of_parent present asks
      exact grown.trans (middleSound.sound_grows_document parentPresent breaks).2
  | merged asks documents more ih =>
      obtain ⟨middleSound, grown⟩ := sound.sound_grows_parent present asks
      have parentPresent := sound.has_of_parent present asks
      obtain ⟨lateSound, lateGrown⟩ :=
        middleSound.sound_grows_document parentPresent documents
      have soFar := grown.trans lateGrown
      exact soFar.trans (ih lateSound (soFar.has present))

/-! ## Before the parents are asked for -/

/-- A state is ready if the document is made by inheriting from the parents there. -/
structure Prepared
    (resolver : ImportResolver)
    (ref : ModelRef)
    (merge : Option Bool)
    (before : Traversal)
    (own : Document)
    (ready : Traversal) : Prop where
  alike : Alike before ready
  sound : ready.Sound
  outcome_eq : ∀ {documentOf result after},
    Inheriting resolver documentOf ref own.parents Sections.empty ready result after →
      outcome (documentFrom resolver documentOf ref merge) before =
        (result.map fun sections => { own with sections := sections.overlay own.sections },
          after)

/-- A document is settled without the parents if it does not matter how their documents
are made. -/
structure SettledAlone
    (resolver : ImportResolver)
    (ref : ModelRef)
    (merge : Option Bool)
    (before : Traversal)
    (result : Except Failure Document)
    (after : Traversal) : Prop where
  alike : Alike before after
  outcome_eq : ∀ documentOf,
    outcome (documentFrom resolver documentOf ref merge) before = (result, after)

/-- Whether a document is settled without the parents depends on the contract only, and
on whether parents are merged in. -/
theorem Sound.settledAlone_or_prepared
    (resolver : ImportResolver)
    (merge : Option Bool)
    (sound : before.Sound)
    (present : before.Has ref) :
    (∃ failure, (before.model ref).subject.plainDocument = .error failure ∧
      ∃ after, SettledAlone resolver ref merge before (.error failure) after) ∨
    ∃ own, (before.model ref).subject.plainDocument = .ok own ∧
      (((merge <|> (before.model ref).mergesParents).getD false = false ∧
        ∃ after, SettledAlone resolver ref merge before (.ok own) after) ∨
      ((merge <|> (before.model ref).mergesParents).getD false = true ∧
        ∃ ready, Prepared resolver ref merge before own ready)) := by
  rcases derives : outcome (Traversal.derive ref Subject.document) before with ⟨result, middle⟩
  have result_eq := sound.derive_result present Subject.yields_document derives
  have alike := Alike.of_derive present derives
  rw [← result_eq]
  cases result with
  | error failure =>
      exact .inl ⟨failure, rfl, middle, alike, fun _ => (Documenting.underived derives).outcome_eq⟩
  | ok own =>
      refine .inr ⟨own, rfl, ?_⟩
      rw [← alike.sameModels.mergesParents_eq present]
      cases merging : (merge <|> (middle.model ref).mergesParents).getD false with
      | false =>
          exact .inl ⟨rfl, middle, alike, fun _ => (Documenting.alone derives merging).outcome_eq⟩
      | true =>
          have middlePresent := alike.has present
          have passed : Passage resolver before [] middle :=
            .of_derive present Subject.yields_document derives
          rcases lists : outcome (Traversal.derive ref Subject.parents) middle with
            ⟨listed, ready⟩
          have listed_eq := (passed.sound sound).derive_result middlePresent
            Subject.yields_parents lists
          rw [alike.sameModels.subject_eq present,
            Subject.plainParents_of_plainDocument result_eq.symm] at listed_eq
          subst listed_eq
          have readied := passed.trans (.of_derive middlePresent Subject.yields_parents lists)
          exact .inr ⟨rfl, ready, alike.trans (.of_derive middlePresent lists),
            readied.sound sound,
            fun inheriting => (Documenting.inherited derives merging lists inheriting).outcome_eq⟩

/-- In a state that covers another one a document is settled without the parents, or
comes from the same parents, as in the other one. -/
theorem Covers.settledAlone_or_prepared
    (covers : Covers before other)
    (resolver : ImportResolver)
    (merge : Option Bool)
    (sound : before.Sound)
    (otherSound : other.Sound)
    (present : before.Has ref) :
    (∃ result after otherAfter, SettledAlone resolver ref merge before result after ∧
      SettledAlone resolver ref merge other result otherAfter) ∨
    (merge <|> (before.model ref).mergesParents).getD false = true ∧
      ∃ own ready otherReady, Prepared resolver ref merge before own ready ∧
        Prepared resolver ref merge other own otherReady := by
  have grows := covers.model_grows present
  have first := sound.settledAlone_or_prepared resolver merge present
  have second := otherSound.settledAlone_or_prepared resolver merge (covers.has present)
  rw [grows.subject_eq, grows.mergesParents_eq] at second
  rcases first with ⟨failure, own_eq, after, settled⟩ | ⟨own, own_eq, ways⟩
  · rw [own_eq] at second
    rcases second with ⟨_, ⟨⟩, otherAfter, otherSettled⟩ | ⟨_, ⟨⟩, _⟩
    exact .inl ⟨_, after, otherAfter, settled, otherSettled⟩
  · rw [own_eq] at second
    rcases second with ⟨_, ⟨⟩, _⟩ | ⟨_, ⟨⟩, otherWays⟩
    rcases ways with ⟨unmerged, after, settled⟩ | ⟨merging, ready, prepared⟩
    · rw [unmerged] at otherWays
      rcases otherWays with ⟨_, otherAfter, otherSettled⟩ | ⟨⟨⟩, _⟩
      exact .inl ⟨_, after, otherAfter, settled, otherSettled⟩
    · rw [merging] at otherWays
      rcases otherWays with ⟨⟨⟩, _⟩ | ⟨_, otherReady, otherPrepared⟩
      exact .inr ⟨merging, own, ready, otherReady, prepared, otherPrepared⟩

/-- Only whether parents are merged in matters, not who says so. -/
theorem document_eq_of_merging
    (present : before.Has ref)
    (merging : (merge <|> (before.model ref).mergesParents).getD false = true)
    (resolver : ImportResolver)
    (depth : Nat) :
    outcome (document resolver depth ref merge) before =
      outcome (document resolver depth ref (some true)) before := by
  cases depth with
  | zero => rfl
  | succ depth =>
      rw [document_succ, document_succ]
      have same := (sameModels_derive present Subject.document).mergesParents_eq present
      unfold documentFrom
      rcases derives : outcome (derive ref Subject.document) before with ⟨result, middle⟩
      rw [derives] at same
      cases result with
      | error failure => rw [outcome_bind_of_error derives, outcome_bind_of_error derives]
      | ok own =>
          rw [outcome_bind_of_ok derives, outcome_bind_of_ok derives]
          have looked : outcome (getModel ref) middle = (.ok (middle.model ref), middle) := rfl
          rw [outcome_bind_of_ok looked, outcome_bind_of_ok looked, same, if_pos merging]
          rfl

/-! ## Documents in states that are alike -/

/-- Inheriting has the same result in states that are alike, if making the documents of
parents has. -/
theorem Inheriting.congr
    {entries : Entries String (Option String)}
    {inherited : Sections}
    {result : Except Failure Sections}
    (inheriting : Inheriting resolver (fun parentRef => document resolver depth parentRef none)
      ref entries inherited before result after)
    (documentCongr : ∀ {parentRef result} {before after other : Traversal},
      Alike before other → before.Sound → other.Sound → before.Has parentRef →
      outcome (document resolver depth parentRef none) before = (result, after) →
        ∃ otherAfter, outcome (document resolver depth parentRef none) other =
          (result, otherAfter) ∧ Alike after otherAfter)
    (alike : Alike before other)
    (sound : before.Sound)
    (otherSound : other.Sound)
    (present : before.Has ref) :
    ∃ otherAfter, Inheriting resolver (fun parentRef => document resolver depth parentRef none)
      ref entries inherited other result otherAfter ∧ Alike after otherAfter := by
  induction inheriting generalizing other with
  | done => exact ⟨other, .done, alike⟩
  | skipped more ih =>
      obtain ⟨otherAfter, otherMore, afterAlike⟩ := ih alike sound otherSound present
      exact ⟨otherAfter, .skipped otherMore, afterAlike⟩
  | @refused name path rest inherited before after failure refuses =>
      have asking := asking_parent resolver ref path name before
      rw [refuses] at asking
      obtain ⟨otherAfter, otherAsking, afterAlike⟩ :=
        asking.congr sound otherSound present alike
      exact ⟨otherAfter, .refused otherAsking.outcome_eq, afterAlike⟩
  | @broken name path rest inherited before middle after parentRef failure asks breaks =>
      have asking := asking_parent resolver ref path name before
      rw [asks] at asking
      obtain ⟨otherMiddle, otherAsking, middleAlike⟩ :=
        asking.congr sound otherSound present alike
      have otherAsks := otherAsking.outcome_eq
      obtain ⟨middleSound, _⟩ := sound.sound_grows_parent present asks
      obtain ⟨otherMiddleSound, _⟩ :=
        otherSound.sound_grows_parent (alike.has present) otherAsks
      obtain ⟨otherAfter, otherBreaks, afterAlike⟩ := documentCongr middleAlike middleSound
        otherMiddleSound (sound.has_of_parent present asks) breaks
      exact ⟨otherAfter, .broken otherAsks otherBreaks, afterAlike⟩
  | @merged name path rest inherited before middle late after parentRef parentDocument
      result asks documents more ih =>
      have asking := asking_parent resolver ref path name before
      rw [asks] at asking
      obtain ⟨otherMiddle, otherAsking, middleAlike⟩ :=
        asking.congr sound otherSound present alike
      have otherAsks := otherAsking.outcome_eq
      obtain ⟨middleSound, grown⟩ := sound.sound_grows_parent present asks
      obtain ⟨otherMiddleSound, _⟩ :=
        otherSound.sound_grows_parent (alike.has present) otherAsks
      have parentPresent := sound.has_of_parent present asks
      obtain ⟨otherLate, otherDocuments, lateAlike⟩ := documentCongr middleAlike middleSound
        otherMiddleSound parentPresent documents
      obtain ⟨lateSound, lateGrown⟩ :=
        middleSound.sound_grows_document parentPresent documents
      obtain ⟨otherLateSound, _⟩ := otherMiddleSound.sound_grows_document
        (middleAlike.has parentPresent) otherDocuments
      obtain ⟨otherAfter, otherMore, afterAlike⟩ := ih lateAlike lateSound otherLateSound
        (lateGrown.has (grown.has present))
      exact ⟨otherAfter, .merged otherAsks otherDocuments otherMore, afterAlike⟩

/-- Making a document has the same result in states that are alike, and leaves states
that are alike. -/
theorem Alike.document
    {result : Except Failure Document}
    (alike : Alike before other)
    (sound : before.Sound)
    (otherSound : other.Sound)
    (present : before.Has ref)
    (documents : outcome (Traversal.document resolver depth ref merge) before =
      (result, after)) :
    ∃ otherAfter, outcome (Traversal.document resolver depth ref merge) other =
      (result, otherAfter) ∧ Alike after otherAfter := by
  induction depth generalizing ref merge before after other result with
  | zero =>
      obtain ⟨rfl, rfl⟩ := Prod.mk.inj documents
      exact ⟨other, rfl, alike⟩
  | succ depth ih =>
      rw [document_succ] at documents ⊢
      rcases alike.covers.settledAlone_or_prepared resolver merge sound otherSound present with
        ⟨_, _, otherAfter, settled, otherSettled⟩ |
        ⟨_, own, ready, otherReady, prepared, otherPrepared⟩
      · obtain ⟨rfl, rfl⟩ := Prod.mk.inj ((settled.outcome_eq _).symm.trans documents)
        exact ⟨otherAfter, otherSettled.outcome_eq _,
          settled.alike.symm.trans (alike.trans otherSettled.alike)⟩
      · have inheriting := inheriting_foldlM resolver
          (fun parentRef => Traversal.document resolver depth parentRef none) ref
          own.parents Sections.empty ready
        obtain ⟨rfl, rfl⟩ :=
          Prod.mk.inj ((prepared.outcome_eq inheriting).symm.trans documents)
        obtain ⟨otherAfter, otherInheriting, afterAlike⟩ := inheriting.congr ih
          (prepared.alike.symm.trans (alike.trans otherPrepared.alike)) prepared.sound
          otherPrepared.sound (prepared.alike.has present)
        exact ⟨otherAfter, otherPrepared.outcome_eq otherInheriting, afterAlike⟩

/-! ## Documents that are returned below a limit -/

/-- Inheriting that succeeds does not depend on how documents are made that are not
returned. -/
theorem Inheriting.of_returned
    {documentOf otherOf : ModelRef → Step Document}
    {entries : Entries String (Option String)}
    {inherited : Sections}
    {result : Except Failure Sections}
    (inheriting : Inheriting resolver documentOf ref entries inherited before result after)
    (returns : ∀ {parentRef document before after},
      outcome (documentOf parentRef) before = (.ok document, after) →
        outcome (otherOf parentRef) before = (.ok document, after))
    {sections : Sections}
    (succeeds : result = .ok sections) :
    Inheriting resolver otherOf ref entries inherited before result after := by
  induction inheriting with
  | done => exact .done
  | skipped more ih => exact .skipped (ih succeeds)
  | refused refuses => cases succeeds
  | broken asks breaks => cases succeeds
  | merged asks documents more ih => exact .merged asks (returns documents) (ih succeeds)

/-- A document that is returned is returned with every higher limit. -/
theorem document_of_le
    {document : Document}
    {levels : Nat}
    (returns : outcome (Traversal.document resolver depth ref merge) before =
      (.ok document, after))
    (enough : depth ≤ levels) :
    outcome (Traversal.document resolver levels ref merge) before = (.ok document, after) := by
  induction depth generalizing ref merge before after document levels with
  | zero => cases returns
  | succ depth ih =>
      obtain ⟨levels, rfl⟩ : ∃ fewer, levels = fewer + 1 :=
        Nat.exists_eq_add_one.mpr (Nat.lt_of_lt_of_le (Nat.succ_pos depth) enough)
      have documenting := documenting_document resolver ref merge depth before
      rw [returns] at documenting
      rw [document_succ]
      generalize result_eq : (Except.ok document : Except Failure Document) = result
        at documenting ⊢
      cases documenting with
      | underived fails => cases result_eq
      | alone derives unmerged => exact (Documenting.alone derives unmerged).outcome_eq
      | unparented derives merging fails => cases result_eq
      | @inherited own middle ready after parents sections derives merging lists inheriting =>
          cases sections with
          | error failure => cases result_eq
          | ok sections =>
              have inherits := inheriting.of_returned
                (fun made => ih made (Nat.le_of_succ_le_succ enough)) rfl
              exact (Documenting.inherited derives merging lists inherits).outcome_eq

/-- Two limits below which a document is returned give the same outcome. -/
theorem document_unique
    {first second : Document}
    {levels : Nat}
    {firstAfter secondAfter : Traversal}
    (returns : outcome (document resolver depth ref merge) before = (.ok first, firstAfter))
    (otherReturns : outcome (document resolver levels ref merge) before =
      (.ok second, secondAfter)) :
    first = second ∧ firstAfter = secondAfter := by
  have outcome_eq : (Except.ok first, firstAfter) =
      ((Except.ok second, secondAfter) : Except Failure Document × Traversal) := by
    rcases Nat.le_total depth levels with lower | higher
    · exact (document_of_le returns lower).symm.trans otherReturns
    · exact returns.symm.trans (document_of_le otherReturns higher)
  obtain ⟨result_eq, after_eq⟩ := Prod.mk.inj outcome_eq
  exact ⟨Except.ok.inj result_eq, after_eq⟩

/-! ## Making a document again -/

/-- A later state lies behind an attempt.  If the attempt succeeded, more may have been
added since; if it failed, nothing has. -/
def Behind {α : Type} (attempt : Except Failure α) (after later : Traversal) : Prop :=
  match attempt with
  | .ok _ => Covers after later
  | .error _ => Alike after later

theorem Behind.covers
    {α : Type}
    {attempt : Except Failure α}
    (behind : Behind attempt after other) :
    Covers after other := by
  cases attempt with
  | ok value => exact behind
  | error failure => exact Alike.covers behind

theorem Behind.alike
    {α : Type}
    {attempt : Except Failure α}
    {later : Traversal}
    (behind : Behind attempt after other)
    (alike : Alike other later) :
    Behind attempt after later := by
  cases attempt with
  | ok value => exact Covers.trans behind alike.covers
  | error failure => exact Alike.trans behind alike

/-- What a new attempt leaves, which has a result already known from a fresh state.  It
adds nothing, and the first attempt succeeded or the new one fails; or the first attempt
failed and the new one gets where it gets from the fresh state. -/
def Resumes {α : Type} (attempt result : Except Failure α)
    (fresh later after : Traversal) : Prop :=
  (Alike later after ∧ ((∃ value, attempt = .ok value) ∨ ∃ failure, result = .error failure)) ∨
    ((∃ failure, attempt = .error failure) ∧ Alike fresh after)

section Mapping

variable
  {α β : Type}
  {attempt result : Except Failure α}
  {fresh later ready : Traversal}

theorem Behind.of_map
    {f : α → β}
    (behind : Behind (attempt.map f) after later) :
    Behind attempt after later := by
  cases attempt <;> exact behind

theorem Resumes.map
    (resumes : Resumes attempt result fresh later after)
    (f : α → β) :
    Resumes (attempt.map f) (result.map f) fresh later after := by
  rcases resumes with ⟨alike, ⟨value, rfl⟩ | ⟨failure, rfl⟩⟩ | ⟨⟨failure, rfl⟩, alike⟩
  · exact .inl ⟨alike, .inl ⟨f value, rfl⟩⟩
  · exact .inl ⟨alike, .inr ⟨failure, rfl⟩⟩
  · exact .inr ⟨⟨failure, rfl⟩, alike⟩

theorem Resumes.of_alike
    (resumes : Resumes attempt result fresh ready after)
    (alike : Alike later ready) :
    Resumes attempt result fresh later after := by
  rcases resumes with ⟨added, ended⟩ | resumed
  · exact .inl ⟨alike.trans added, ended⟩
  · exact .inr resumed

end Mapping

/-- Inheriting again has the result that it has in a fresh state, if making the documents of
parents again has.  Where the new attempt gets further than the first one, it is fresh from
there on. -/
theorem Inheriting.again
    {levels : Nat}
    {entries : Entries String (Option String)}
    {inherited : Sections}
    {attempt result : Except Failure Sections}
    {fresh : Traversal}
    (attempted : Inheriting resolver (fun parentRef => document resolver depth parentRef none)
      ref entries inherited before attempt after)
    (inheriting : Inheriting resolver (fun parentRef => document resolver levels parentRef none)
      ref entries inherited before result fresh)
    (documentAgain : ∀ {parentRef attempt result} {before after fresh other : Traversal},
      before.Sound → other.Sound → before.Has parentRef → Behind attempt after other →
      outcome (document resolver depth parentRef none) before = (attempt, after) →
      outcome (document resolver levels parentRef none) before = (result, fresh) →
        ∃ otherAfter, outcome (document resolver levels parentRef none) other =
          (result, otherAfter) ∧ Resumes attempt result fresh other otherAfter)
    (sound : before.Sound)
    (otherSound : other.Sound)
    (present : before.Has ref)
    (behind : Behind attempt after other) :
    ∃ otherAfter, Inheriting resolver (fun parentRef => document resolver levels parentRef none)
      ref entries inherited other result otherAfter ∧
        Resumes attempt result fresh other otherAfter := by
  induction attempted generalizing other with
  | done =>
      cases inheriting
      exact ⟨other, .done, .inl ⟨.refl other, .inl ⟨_, rfl⟩⟩⟩
  | skipped more ih =>
      cases inheriting with
      | skipped rest =>
          obtain ⟨otherAfter, otherRest, resumes⟩ := ih rest sound otherSound present behind
          exact ⟨otherAfter, .skipped otherRest, resumes⟩
  | refused refuses =>
      obtain ⟨otherAfter, otherRefuses, alike⟩ :=
        parent_refused_again sound otherSound present refuses behind
      have result_eq := (Inheriting.refused refuses).outcome_eq.symm.trans inheriting.outcome_eq
      obtain ⟨rfl, rfl⟩ := Prod.mk.inj result_eq
      exact ⟨otherAfter, .refused otherRefuses, .inl ⟨alike, .inr ⟨_, rfl⟩⟩⟩
  | @broken name path rest inherited before middle after parentRef failure asks breaks =>
      obtain ⟨middleSound, grown⟩ := sound.sound_grows_parent present asks
      have parentPresent := sound.has_of_parent present asks
      obtain ⟨_, lateGrown⟩ := middleSound.sound_grows_document parentPresent breaks
      have otherAsks := parent_again present asks
        ((Covers.of_grows lateGrown).trans behind.covers)
      cases inheriting with
      | refused refuses => cases asks.symm.trans refuses
      | broken freshAsks freshBreaks =>
          obtain ⟨⟨⟩, rfl⟩ := Prod.mk.inj (asks.symm.trans freshAsks)
          obtain ⟨otherAfter, otherBreaks, resumes⟩ := documentAgain middleSound otherSound
            parentPresent behind breaks freshBreaks
          refine ⟨otherAfter, .broken otherAsks otherBreaks, ?_⟩
          rcases resumes with ⟨alike, _⟩ | ⟨_, alike⟩
          · exact .inl ⟨alike, .inr ⟨_, rfl⟩⟩
          · exact .inr ⟨⟨_, rfl⟩, alike⟩
      | merged freshAsks freshDocuments freshMore =>
          obtain ⟨⟨⟩, rfl⟩ := Prod.mk.inj (asks.symm.trans freshAsks)
          obtain ⟨otherLate, otherDocuments, resumes⟩ := documentAgain middleSound otherSound
            parentPresent behind breaks freshDocuments
          rcases resumes with ⟨_, ⟨_, ⟨⟩⟩ | ⟨_, ⟨⟩⟩⟩ | ⟨_, lateAlike⟩
          obtain ⟨freshLateSound, freshGrown⟩ :=
            middleSound.sound_grows_document parentPresent freshDocuments
          obtain ⟨otherLateSound, _⟩ := otherSound.sound_grows_document
            (behind.covers.has (lateGrown.has parentPresent)) otherDocuments
          obtain ⟨otherAfter, otherMore, afterAlike⟩ := freshMore.congr
            (fun alike sound otherSound present documents =>
              alike.document sound otherSound present documents)
            lateAlike freshLateSound otherLateSound (freshGrown.has (grown.has present))
          exact ⟨otherAfter, .merged otherAsks otherDocuments otherMore,
            .inr ⟨⟨_, rfl⟩, afterAlike⟩⟩
  | @merged name path rest inherited before middle late after parentRef parentDocument
      attempt asks documents more ih =>
      obtain ⟨middleSound, grown⟩ := sound.sound_grows_parent present asks
      have parentPresent := sound.has_of_parent present asks
      obtain ⟨lateSound, lateGrown⟩ :=
        middleSound.sound_grows_document parentPresent documents
      have latePresent := lateGrown.has (grown.has present)
      have lateCovers : Covers late other :=
        (Covers.of_grows (more.grows lateSound latePresent)).trans behind.covers
      have lateBehind : Behind (.ok parentDocument : Except Failure Document) late other :=
        lateCovers
      have otherAsks := parent_again present asks
        ((Covers.of_grows lateGrown).trans lateCovers)
      cases inheriting with
      | refused refuses => cases asks.symm.trans refuses
      | broken freshAsks freshBreaks =>
          obtain ⟨⟨⟩, rfl⟩ := Prod.mk.inj (asks.symm.trans freshAsks)
          obtain ⟨otherAfter, otherBreaks, resumes⟩ := documentAgain middleSound otherSound
            parentPresent lateBehind documents freshBreaks
          rcases resumes with ⟨alike, _⟩ | ⟨⟨_, ⟨⟩⟩, _⟩
          exact ⟨otherAfter, .broken otherAsks otherBreaks, .inl ⟨alike, .inr ⟨_, rfl⟩⟩⟩
      | merged freshAsks freshDocuments freshMore =>
          obtain ⟨⟨⟩, rfl⟩ := Prod.mk.inj (asks.symm.trans freshAsks)
          obtain ⟨rfl, rfl⟩ := document_unique documents freshDocuments
          obtain ⟨otherLate, otherDocuments, resumes⟩ := documentAgain middleSound otherSound
            parentPresent lateBehind documents freshDocuments
          rcases resumes with ⟨lateAlike, _⟩ | ⟨⟨_, ⟨⟩⟩, _⟩
          obtain ⟨otherLateSound, _⟩ := otherSound.sound_grows_document
            (lateCovers.has (lateGrown.has parentPresent)) otherDocuments
          obtain ⟨otherAfter, otherMore, resumes⟩ := ih freshMore lateSound otherLateSound
            latePresent (behind.alike lateAlike)
          exact ⟨otherAfter, .merged otherAsks otherDocuments otherMore,
            resumes.of_alike lateAlike⟩

/-- A document that is made again has the result that it has in a fresh state. -/
theorem Sound.document_again
    {levels : Nat}
    {attempt result : Except Failure Document}
    {fresh : Traversal}
    (sound : before.Sound)
    (otherSound : other.Sound)
    (present : before.Has ref)
    (behind : Behind attempt after other)
    (attempted : outcome (document resolver depth ref merge) before = (attempt, after))
    (documents : outcome (document resolver levels ref merge) before = (result, fresh)) :
    ∃ otherAfter, outcome (document resolver levels ref merge) other = (result, otherAfter) ∧
      Resumes attempt result fresh other otherAfter := by
  induction levels generalizing depth ref merge before after other attempt result fresh with
  | zero =>
      obtain ⟨rfl, rfl⟩ := Prod.mk.inj documents
      exact ⟨other, rfl, .inl ⟨.refl other, .inr ⟨_, rfl⟩⟩⟩
  | succ levels ih =>
      cases depth with
      | zero =>
          obtain ⟨rfl, rfl⟩ := Prod.mk.inj attempted
          obtain ⟨otherAfter, otherDocuments, alike⟩ :=
            Alike.document behind sound otherSound present documents
          exact ⟨otherAfter, otherDocuments, .inr ⟨⟨_, rfl⟩, alike⟩⟩
      | succ depth =>
          obtain ⟨_, grown⟩ := sound.sound_grows_document present attempted
          have covers := (Covers.of_grows grown).trans behind.covers
          rw [document_succ] at attempted documents ⊢
          rcases covers.settledAlone_or_prepared resolver merge sound otherSound present with
            ⟨settledResult, _, otherAfter, settled, otherSettled⟩ |
            ⟨_, own, ready, otherReady, prepared, otherPrepared⟩
          · obtain ⟨rfl, rfl⟩ := Prod.mk.inj ((settled.outcome_eq _).symm.trans attempted)
            obtain ⟨rfl, rfl⟩ := Prod.mk.inj ((settled.outcome_eq _).symm.trans documents)
            refine ⟨otherAfter, otherSettled.outcome_eq _, .inl ⟨otherSettled.alike, ?_⟩⟩
            cases settledResult with
            | ok document => exact .inl ⟨_, rfl⟩
            | error failure => exact .inr ⟨_, rfl⟩
          · have readyPresent := prepared.alike.has present
            have firstInheriting := inheriting_foldlM resolver
              (fun parentRef => document resolver depth parentRef none) ref own.parents
              Sections.empty ready
            have freshInheriting := inheriting_foldlM resolver
              (fun parentRef => document resolver levels parentRef none) ref own.parents
              Sections.empty ready
            obtain ⟨rfl, rfl⟩ :=
              Prod.mk.inj ((prepared.outcome_eq firstInheriting).symm.trans attempted)
            obtain ⟨rfl, rfl⟩ :=
              Prod.mk.inj ((prepared.outcome_eq freshInheriting).symm.trans documents)
            obtain ⟨otherAfter, otherInheriting, resumes⟩ := firstInheriting.again
              freshInheriting ih prepared.sound otherPrepared.sound readyPresent
              (behind.of_map.alike otherPrepared.alike)
            exact ⟨otherAfter, otherPrepared.outcome_eq otherInheriting,
              (resumes.of_alike otherPrepared.alike).map _⟩

end Traversal
end ContractDoc
