import ContractDoc.Proofs.Traversal.Override
import ContractDoc.Proofs.Value.Summary

/-!
# Results of making a document

All tags of a document that is returned are regular, those of inherited members too.  A
document that is not returned fails for one of four causes: something is wrong with
a source, the resolver fails, a parent closes a circle, or the limit is reached.  The
resolver is asked by models that are there, and its notices are on record.
-/

namespace ContractDoc

/-! ## Failures of sources -/

/-- The failures of a source. -/
inductive Failure.OfSource : Failure → Prop
  | parse (error : ParseError) : OfSource (.parse error)
  | missingPragma (source : String) : OfSource (.missingPragma source)
  | noContract (source : String) : OfSource (.noContract source)
  | contractNotFound (name source : String) : OfSource (.contractNotFound name source)
  | comment (error : NatSpec.Error) : OfSource (.comment error)

/-- A result that is there, or fails for its source only. -/
def FailsBySource {α : Type} (result : Except Failure α) : Prop :=
  ∀ failure, result = .error failure → failure.OfSource

namespace FailsBySource

variable {α β : Type}

theorem ok (value : α) : FailsBySource (.ok value) := nofun

theorem bind
    {first : Except Failure α}
    {second : α → Except Failure β}
    (firstFails : FailsBySource first)
    (secondFails : ∀ value, FailsBySource (second value)) :
    FailsBySource (first >>= second) := by
  cases first with
  | error failure =>
      rintro _ ⟨⟩
      exact firstFails failure rfl
  | ok value => exact secondFails value

theorem comment (result : Except NatSpec.Error α) :
    FailsBySource (result.mapError Failure.comment) := by
  cases result with
  | error error =>
      rintro _ ⟨⟩
      exact .comment error
  | ok value => exact ok value

theorem mapM
    {read : α → Except Failure β}
    (eachFails : ∀ value, FailsBySource (read value))
    (values : List α) :
    FailsBySource (values.mapM read) := by
  induction values with
  | nil => exact ok []
  | cons value values ih =>
      rw [List.mapM_cons]
      exact (eachFails value).bind fun _ => ih.bind fun _ => ok _

end FailsBySource

theorem failsBySource_tagBlocks (blocks : Entries String Block) :
    FailsBySource (tagBlocks blocks) :=
  .mapM (fun _ => .bind (.comment _) fun _ => .ok _) blocks

namespace Subject

variable (subject : Subject)

theorem failsBySource_plainTree : FailsBySource subject.plainTree := by
  unfold plainTree
  cases parse subject.source with
  | error error =>
      rintro _ ⟨⟩
      exact .parse error
  | ok tree => exact .ok tree

theorem failsBySource_choose (contracts : List ContractDecl) :
    FailsBySource (subject.choose contracts) := by
  intro failure fails
  unfold choose at fails
  dsimp only at fails
  split at fails
  · cases fails
  · split at fails
    · cases fails
    · cases fails
      exact .contractNotFound _ _
  · cases fails
    exact .noContract _

theorem failsBySource_plainContract : FailsBySource subject.plainContract :=
  subject.failsBySource_plainTree.bind fun _ => subject.failsBySource_choose _

theorem failsBySource_plainName : FailsBySource subject.plainName :=
  subject.failsBySource_plainContract.bind fun _ => .ok _

theorem failsBySource_plainPragma : FailsBySource subject.plainPragma := by
  refine subject.failsBySource_plainTree.bind ?_
  intro tree failure fails
  unfold constraintOf at fails
  split at fails
  · cases fails
    exact .missingPragma _
  · cases fails

theorem failsBySource_plainImports : FailsBySource subject.plainImports :=
  subject.failsBySource_plainTree.bind fun _ => .ok _

theorem failsBySource_plainParents : FailsBySource subject.plainParents :=
  subject.failsBySource_plainContract.bind fun _ =>
    subject.failsBySource_plainImports.bind fun _ => .ok _

theorem failsBySource_plainBlocks (kind : MemberKind) :
    FailsBySource (subject.plainBlocks kind) :=
  subject.failsBySource_plainContract.bind fun _ => .ok _

theorem failsBySource_plainContractInfo : FailsBySource subject.plainContractInfo :=
  .bind (subject.failsBySource_plainContract.bind fun _ => .ok _) fun _ =>
    subject.failsBySource_plainName.bind fun _ =>
      .bind (.comment _) fun _ =>
        .bind (subject.failsBySource_plainContract.bind fun _ => .comment _) fun _ => .ok _

/-- Without its parents a contract fails for its source only. -/
theorem failsBySource_plainDocument : FailsBySource subject.plainDocument :=
  subject.failsBySource_plainContractInfo.bind fun _ =>
    .bind (subject.failsBySource_plainPragma.bind fun _ =>
        subject.failsBySource_plainImports.bind fun _ => .ok _) fun _ =>
      subject.failsBySource_plainParents.bind fun _ =>
        (subject.failsBySource_plainBlocks _).bind fun _ =>
          (failsBySource_tagBlocks _).bind fun _ =>
            (subject.failsBySource_plainBlocks _).bind fun _ =>
              (failsBySource_tagBlocks _).bind fun _ =>
                (subject.failsBySource_plainBlocks _).bind fun _ =>
                  (failsBySource_tagBlocks _).bind fun _ => .ok _

end Subject

/-! ## Regular documents -/

/-- The tags of divided comments are regular. -/
theorem regular_of_tagBlocks
    {blocks : Entries String Block}
    {tagged : Entries String TaggedBlock}
    (divides : tagBlocks blocks = .ok tagged) :
    ∀ entry ∈ tagged, entry.2.tags.Regular := by
  have each := forall₂_of_tagBlocks divides
  clear divides
  induction each with
  | nil => exact List.forall_mem_nil _
  | cons first _ ih =>
      obtain ⟨tags, divided, block_eq⟩ := bind_eq_ok.mp first.2
      refine List.forall_mem_cons.mpr ⟨?_, ih⟩
      rw [← Except.ok.inj block_eq]
      exact .ofText divided

namespace Subject

variable {subject : Subject} {own : Document}

/-- The tags of a contract are regular. -/
theorem regular_of_tagsOf
    {contract : ContractDecl}
    {tags : NatSpec}
    (divides : subject.tagsOf contract = .ok tags) :
    tags.Regular := by
  obtain ⟨found, divided, titled⟩ := bind_eq_ok.mp divides
  have regular := NatSpec.Regular.ofText divided
  split at titled
  · rw [← Except.ok.inj titled]
    exact regular.insert_text _ _
  · rw [← Except.ok.inj titled]
    exact regular.insert_text _ _
  · rw [← Except.ok.inj titled]
    exact regular

/-- A document without inherited members is regular. -/
theorem regular_of_plainDocument
    (documents : subject.plainDocument = .ok own) :
    own.Regular where
  contract := by
    obtain ⟨contract, -, -, -, divides⟩ :=
      plainContractInfo_eq_ok_iff.mp (plainDocument_eq_ok_iff.mp documents).1
    exact regular_of_tagsOf divides
  members := by
    intro part
    obtain ⟨blocks, _, divides⟩ := members_of_plainDocument documents part
    exact regular_of_tagBlocks divides

end Subject

namespace Traversal

variable
  {resolver : ImportResolver}
  {depth : Nat}
  {before after : Traversal}
  {ref : ModelRef}
  {merge : Option Bool}
  {document : Document}

/-- A document without the members of parents is the plain one. -/
theorem Sound.plain_of_document
    (sound : before.Sound)
    (present : before.Has ref)
    (unmerged : (merge <|> (before.model ref).mergesParents).getD false = false)
    (returns : outcome (Traversal.document resolver depth ref merge) before =
      (.ok document, after)) :
    (before.model ref).subject.plainDocument = .ok document := by
  cases depth with
  | zero => cases returns
  | succ depth =>
      have documenting := documenting_document resolver ref merge depth before
      rw [returns] at documenting
      generalize result_eq : Except.ok document = result at documenting
      have same := sameModels_derive present Subject.document
      cases documenting with
      | underived fails => cases result_eq
      | unparented derives merging fails => cases result_eq
      | alone derives _ =>
          obtain rfl := Except.ok.inj result_eq
          exact (sound.derive_result present Subject.yields_document derives).symm
      | inherited derives merging _ _ =>
          rw [derives] at same
          rw [same.mergesParents_eq present, unmerged] at merging
          cases merging

/-- A document that is returned is regular.  A merged member is an own one, or one that some
ancestor documents itself. -/
theorem Sound.regular_of_document
    (sound : before.Sound)
    (present : before.Has ref)
    (returns : outcome (Traversal.document resolver depth ref merge) before =
      (.ok document, after)) :
    document.Regular := by
  cases merging : (merge <|> (before.model ref).mergesParents).getD false with
  | false =>
      exact Subject.regular_of_plainDocument (sound.plain_of_document present merging returns)
  | true =>
      obtain ⟨own, inherited, own_eq, rfl, holds⟩ :=
        sound.inherited_of_document present merging returns (.refl after)
      have ownRegular := Subject.regular_of_plainDocument own_eq
      have ownDistinct := Subject.distinct_of_plainDocument own_eq
      refine ⟨ownRegular.contract, ?_⟩
      intro part entry member
      have found := Entries.get?_of_mem ((holds.distinct.overlay own.sections) part) member
      rw [Sections.get?_overlay ownDistinct] at found
      rcases Option.or_eq_some_iff.mp found with found | ⟨_, found⟩
      · exact ownRegular.members part _ (Entries.mem_of_get? found)
      · obtain ⟨origin, _, other, other_eq, found⟩ := holds.listed_of_get? _ _ _ found
        exact (Subject.regular_of_plainDocument other_eq).members part _
          (Entries.mem_of_get? found)

/-! ## Where failures come from -/

/-- Where a failure comes from: a source, the limit to the levels of parents, or a question
for a parent, to which a passage leads and which leaves the last state. -/
inductive Origin (resolver : ImportResolver) (before after : Traversal) : Failure → Prop
  | source {failure : Failure} (ofSource : failure.OfSource) :
      Origin resolver before after failure
  | limit : Origin resolver before after .tooDeep
  | question {failure : Failure} {questions : List Question} (question : Question)
      (passage : Passage resolver before questions question.state)
      (present : question.Present)
      (refuses : outcome (parent resolver question.ref question.importPath question.name)
        question.state = (.error failure, after)) :
      Origin resolver before after failure

/-- A passage may lead to where a failure comes from. -/
theorem Origin.of_passage
    {middle : Traversal}
    {failure : Failure}
    {questions : List Question}
    (origin : Origin resolver middle after failure)
    (passage : Passage resolver before questions middle) :
    Origin resolver before after failure := by
  cases origin with
  | source ofSource => exact .source ofSource
  | limit => exact .limit
  | question question later present refuses =>
      exact .question question (passage.trans later) present refuses

/-- A failure while inheriting has an origin if those of the parents' documents do. -/
theorem Inheriting.origin
    {entries : Entries String (Option String)}
    {inherited : Sections}
    {result : Except Failure Sections}
    {failure : Failure}
    (inheriting : Inheriting resolver
      (fun parentRef => Traversal.document resolver depth parentRef none) ref entries
      inherited before result after)
    (sound : before.Sound)
    (present : before.Has ref)
    (origins : ∀ parentRef state failure late, state.Sound → state.Has parentRef →
      outcome (Traversal.document resolver depth parentRef none) state =
        (.error failure, late) →
      Origin resolver state late failure)
    (fails : result = .error failure) :
    Origin resolver before after failure := by
  induction inheriting with
  | done => cases fails
  | skipped more ih => exact ih sound present fails
  | @refused name path rest inherited before after other refuses =>
      obtain rfl := Except.error.inj fails
      exact .question ⟨before, ref, path, name⟩ .start present refuses
  | broken asks breaks =>
      obtain rfl := Except.error.inj fails
      have asked := Passage.of_parent present asks
      exact (origins _ _ _ _ (asked.sound sound) (sound.has_of_parent present asks)
        breaks).of_passage asked
  | @merged name path rest inherited before middle late after parentRef made result asks
      documents more ih =>
      have asked := Passage.of_parent present asks
      obtain ⟨questions, documented, -⟩ := (asked.sound sound).passage_document resolver depth
        none (sound.has_of_parent present asks)
      rw [documents] at documented
      have passed := asked.trans documented
      exact (ih (passed.sound sound) (passed.grows.has present) fails).of_passage passed

/-- A document that is not returned has an origin of its failure. -/
theorem Sound.origin_of_document
    {failure : Failure}
    (sound : before.Sound)
    (present : before.Has ref)
    (fails : outcome (Traversal.document resolver depth ref merge) before =
      (.error failure, after)) :
    Origin resolver before after failure := by
  induction depth generalizing before after ref merge failure with
  | zero =>
      obtain ⟨failure_eq, -⟩ := Prod.mk.inj fails
      rw [← Except.error.inj failure_eq]
      exact .limit
  | succ depth ih =>
      have documenting := documenting_document resolver ref merge depth before
      rw [fails] at documenting
      generalize result_eq : Except.error failure = result at documenting
      cases documenting with
      | alone derives unmerged => cases result_eq
      | underived underives =>
          obtain rfl := Except.error.inj result_eq
          have plain := sound.derive_result present Subject.yields_document underives
          exact .source (Subject.failsBySource_plainDocument _ _ plain.symm)
      | unparented derives merging unlists =>
          obtain rfl := Except.error.inj result_eq
          have derived := @Passage.of_derive resolver _ _ _ _ _ _ _ present
            Subject.yields_document derives
          have plain := (derived.sound sound).derive_result (derived.grows.has present)
            Subject.yields_parents unlists
          exact .source (Subject.failsBySource_plainParents _ _ plain.symm)
      | @inherited own middle ready after parents sections derives merging lists inheriting =>
          obtain ⟨passed, _, _⟩ := sound.lists_parents present derives lists
          have readied := passed resolver
          cases sections with
          | ok sections => cases result_eq
          | error other =>
              obtain rfl := Except.error.inj result_eq
              exact (inheriting.origin (readied.sound sound) (readied.grows.has present)
                (fun _ _ _ _ stateSound statePresent breaks => ih stateSound statePresent breaks)
                rfl).of_passage readied

/-! ## Causes of failures -/

/-- Why a document is not returned.  The state is the one that the failure leaves. -/
inductive Cause (resolver : ImportResolver) (after : Traversal) : Failure → Prop
  | source {failure : Failure}
      (ofSource : failure.OfSource) :
      Cause resolver after failure
  | resolution {failure : Failure} {ref : ModelRef} {importPath : String}
      (present : after.Has ref)
      (answer : (resolver importPath (after.model ref).subject.filePath).result =
        .error failure)
      (reported : (resolver importPath (after.model ref).subject.filePath).notices ⊆
        after.notices) :
      Cause resolver after failure
  | circle (lineage : List String) : Cause resolver after (.circularInheritance lineage)
  | limit : Cause resolver after .tooDeep

/-- A refused parent has a cause. -/
theorem Sound.cause_of_parent
    {importPath name : String}
    {failure : Failure}
    (sound : before.Sound)
    (present : before.Has ref)
    (refuses : outcome (Traversal.parent resolver ref importPath name) before =
      (.error failure, after)) :
    Cause resolver after failure := by
  have asking := asking_parent resolver ref importPath name before
  rw [refuses] at asking
  generalize result_eq : Except.error failure = result at asking
  cases asking with
  | linked known => cases result_eq
  | shared unknown resolving notInLineage built => cases result_eq
  | built unknown resolving notInLineage absent derives => cases result_eq
  | circular unknown resolving inLineage =>
      obtain rfl := Except.error.inj result_eq
      exact .circle _
  | unresolved unknown resolving =>
      obtain rfl := Except.error.inj result_eq
      cases resolving with
      | failed unasked answer =>
          exact .resolution present answer (List.subset_append_right _ _)
  | unnamed unknown resolving notInLineage absent fails =>
      obtain rfl := Except.error.inj result_eq
      have same := resolving.sameModels
      have middleSound := resolving.sound sound
      have named := middleSound.derive_result ((same.has_iff ref).mpr present)
        Subject.yields_name fails
      exact .source (Subject.failsBySource_plainName _ _ named.symm)

/-- A document that is not returned has a cause. -/
theorem Sound.cause_of_document
    {failure : Failure}
    (sound : before.Sound)
    (present : before.Has ref)
    (fails : outcome (Traversal.document resolver depth ref merge) before =
      (.error failure, after)) :
    Cause resolver after failure := by
  cases sound.origin_of_document present fails with
  | source ofSource => exact .source ofSource
  | limit => exact .limit
  | question question passage asked refuses =>
      exact (passage.sound sound).cause_of_parent asked refuses

end Traversal
end ContractDoc
