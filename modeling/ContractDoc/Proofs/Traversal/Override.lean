import ContractDoc.Proofs.Sections
import ContractDoc.Proofs.Traversal.Circle
import ContractDoc.Proofs.Traversal.Replay

/-!
# Which members replace inherited ones

Members are merged section by section.  An own member replaces the inherited ones of
its name in its own section, and nothing else is lost: a section holds a name exactly
if the contract or one of its ancestors has a member of that name there.  A function
that reads only therefore leaves an inherited one of the same name that may change the
state, and the other way round.
-/

namespace ContractDoc
namespace Traversal

open Relation

/-! ## Members of ancestors -/

/-- A model or one of its ancestors has a documented member of a name in a section. -/
def Offers
    (state : Traversal)
    (ref : ModelRef)
    (part : Sections.Part)
    (name : String)
    (block : TaggedBlock) : Prop :=
  ∃ origin, ReflTransGen state.DeclaredLink ref origin ∧
    (state.model origin).subject.Documents part name block

/-- An ancestor of a model has a documented member of a name in a section. -/
def Inherits
    (state : Traversal)
    (ref : ModelRef)
    (part : Sections.Part)
    (name : String)
    (block : TaggedBlock) : Prop :=
  ∃ origin, TransGen state.DeclaredLink ref origin ∧
    (state.model origin).subject.Documents part name block

theorem offers_iff
    {state : Traversal}
    {ref : ModelRef}
    {part : Sections.Part}
    {name : String}
    {block : TaggedBlock} :
    state.Offers ref part name block ↔
      (state.model ref).subject.Documents part name block ∨
        state.Inherits ref part name block := by
  constructor
  · rintro ⟨origin, chain, documents⟩
    rcases reflTransGen_iff_eq_or_transGen.mp chain with rfl | chain
    · exact .inl documents
    · exact .inr ⟨origin, chain, documents⟩
  · rintro (documents | ⟨origin, chain, documents⟩)
    · exact ⟨ref, .refl, documents⟩
    · exact ⟨origin, chain.to_reflTransGen, documents⟩

/-- What a model inherits is what its declared parents offer. -/
theorem inherits_iff
    {state : Traversal}
    {ref : ModelRef}
    {part : Sections.Part}
    {name : String}
    {block : TaggedBlock} :
    state.Inherits ref part name block ↔
      ∃ parent, state.DeclaredLink ref parent ∧ state.Offers parent part name block := by
  constructor
  · rintro ⟨origin, chain, documents⟩
    obtain ⟨parent, link, further⟩ := TransGen.head'_iff.mp chain
    exact ⟨parent, link, origin, further, documents⟩
  · rintro ⟨parent, link, origin, further, documents⟩
    exact ⟨origin, .head' link further, documents⟩

/-! ## What merged documents hold -/

/-- Inheriting adds what the parents offer that have been asked for, if the documents
of ancestors hold what these offer. -/
theorem Inheriting.hold
    {resolver : ImportResolver}
    {depth : Nat}
    {ref : ModelRef}
    {entries : Entries String (Option String)}
    {inherited sections : Sections}
    {before after final : Traversal}
    {result : Except Failure Sections}
    {listed : Sections.Part → String → TaggedBlock → Prop}
    (inheriting : Inheriting resolver (fun parentRef => document resolver depth parentRef none)
      ref entries inherited before result after)
    (sound : before.Sound)
    (present : before.Has ref)
    (grows : Grows after final)
    (documentsHold : ∀ ancestor state document late, state.Sound →
      state.Has (.ancestor ancestor) →
        outcome (Traversal.document resolver depth (.ancestor ancestor) none) state =
          (.ok document, late) →
        Grows late final → document.sections.Hold (final.Offers (.ancestor ancestor)))
    (inheritedHold : inherited.Hold listed)
    (succeeds : result = .ok sections) :
    sections.Hold fun part name block =>
      (∃ parent path ancestor, (parent, some path) ∈ entries ∧
        Entries.get? ⟨path, parent⟩ (final.model ref).parents = some ancestor ∧
          final.Offers (.ancestor ancestor) part name block) ∨
        listed part name block := by
  induction inheriting generalizing listed with
  | done =>
      obtain rfl := Except.ok.inj succeeds
      exact inheritedHold.congr fun part name block => by simp
  | skipped more ih =>
      exact (ih sound present grows inheritedHold succeeds).congr
        fun part name block => by simp
  | refused refuses => cases succeeds
  | broken asks breaks => cases succeeds
  | @merged parent path rest inherited before middle late after parentRef parentDocument
      result asks documents more ih =>
      obtain ⟨middleSound, asked⟩ := sound.sound_grows_parent present asks
      have parentPresent := sound.has_of_parent present asks
      obtain ⟨ancestor, rfl, linked⟩ := linked_of_parent present asks
      obtain ⟨lateSound, documented⟩ :=
        middleSound.sound_grows_document parentPresent documents
      have middlePresent := asked.has present
      have latePresent := documented.has middlePresent
      have onward := (more.grows lateSound latePresent).trans grows
      have parentHolds := documentsHold ancestor middle parentDocument late middleSound
        parentPresent documents onward
      have known := (documented.trans onward).get?_parents middlePresent linked
      refine (ih lateSound latePresent grows (inheritedHold.overlay parentHolds)
        succeeds).congr ?_
      intro part name block
      constructor
      · rintro (⟨other, otherPath, found, member, link, offered⟩ | offered | held)
        · exact .inl ⟨other, otherPath, found, List.mem_cons_of_mem _ member, link, offered⟩
        · exact .inl ⟨parent, path, ancestor, List.mem_cons_self, known, offered⟩
        · exact .inr held
      · rintro (⟨other, otherPath, found, member, link, offered⟩ | held)
        · rcases List.mem_cons.mp member with equal | member
          · obtain ⟨rfl, path_eq⟩ := Prod.mk.inj equal
            obtain rfl := Option.some.inj path_eq
            obtain rfl := Option.some.inj (known.symm.trans link)
            exact .inr (.inl offered)
          · exact .inl ⟨other, otherPath, found, member, link, offered⟩
        · exact .inr (.inr held)

/-- A document with the members of parents is the own one, laid over sections that hold what is
inherited.  The induction is on the levels of parents. -/
theorem Sound.inherited_of_document
    {resolver : ImportResolver}
    {depth : Nat}
    {before after final : Traversal}
    {ref : ModelRef}
    {merge : Option Bool}
    {document : Document}
    (sound : before.Sound)
    (present : before.Has ref)
    (merging : (merge <|> (before.model ref).mergesParents).getD false = true)
    (returns : outcome (Traversal.document resolver depth ref merge) before =
      (.ok document, after))
    (grows : Grows after final) :
    ∃ (own : Document) (inherited : Sections),
      (before.model ref).subject.plainDocument = .ok own ∧
      document = { own with sections := inherited.overlay own.sections } ∧
        inherited.Hold (final.Inherits ref) := by
  induction depth generalizing before after ref merge document with
  | zero => cases returns
  | succ depth ih =>
      obtain ⟨own, ready, sections, readied, own_eq, inheriting, rfl⟩ :=
        sound.inheriting_of_document present merging returns
      have readySound := readied.sound sound
      have readyPresent := readied.grows.has present
      have wholly := (readied.grows.trans (inheriting.grows readySound readyPresent)).trans grows
      refine ⟨own, sections, own_eq, rfl, ?_⟩
      have documentsHold : ∀ ancestor state document late, state.Sound →
          state.Has (.ancestor ancestor) →
            outcome (Traversal.document resolver depth (.ancestor ancestor) none) state =
              (.ok document, late) →
            Grows late final → document.sections.Hold (final.Offers (.ancestor ancestor)) := by
        intro ancestor state document late stateSound statePresent made onward
        obtain ⟨parentOwn, inherited, parentOwn_eq, rfl, holds⟩ := ih stateSound statePresent
          (stateSound.merges_ancestor statePresent) made onward
        have grown := (stateSound.sound_grows_document statePresent made).2.trans onward
        rw [← grown.subject_eq statePresent] at parentOwn_eq
        exact (holds.overlay (Subject.hold_plainDocument parentOwn_eq)).congr
          fun _ _ _ => offers_iff.symm
      refine (inheriting.hold readySound readyPresent grows documentsHold
        Sections.hold_empty rfl).congr ?_
      intro part name block
      have declares_iff := Subject.declares_iff (Subject.plainParents_of_plainDocument own_eq)
      rw [← wholly.subject_eq present] at declares_iff
      rw [or_false, inherits_iff]
      constructor
      · rintro ⟨parent, path, ancestor, member, link, offered⟩
        exact ⟨.ancestor ancestor, ⟨wholly.has present, ⟨path, parent⟩, ancestor,
          (declares_iff parent path).mpr member, link, rfl⟩, offered⟩
      · rintro ⟨_, ⟨_, key, ancestor, declares, link, rfl⟩, offered⟩
        exact ⟨key.name, key.importPath, ancestor, (declares_iff _ _).mp declares, link, offered⟩

/-! ## The law of overriding -/

/-- The sections in which functions stand. -/
def functionParts : List Sections.Part := [.functions, .constantFunctions]

/-- After every history of calls, a document that the root returns with the members of
its parents holds the own members of the root in their sections.  Where the root has no
member of a name in a section, the document has one there exactly if an ancestor has,
and only one that an ancestor has.  So for a function of the root, the sections of
functions hold its own declarations only, unless an ancestor has a function of that name
in a section in which the root has none. -/
theorem own_member_overrides_in_its_section
    (resolver : ImportResolver)
    (subject : Subject)
    (mergesParents merge : Option Bool)
    (merging : (merge <|> mergesParents).getD false = true)
    (turns : List Turn)
    (history : History (start subject mergesParents) turns)
    (depth : Nat)
    (document : Document)
    (after : Traversal)
    (returns : outcome (Traversal.document resolver depth .root merge)
      (afterTurns (start subject mergesParents) turns) = (.ok document, after)) :
    ∃ own, subject.plainDocument = .ok own ∧
      (∀ part name block, Entries.get? name (own.sections.members part) = some block →
        Entries.get? name (document.sections.members part) = some block) ∧
      (∀ part name, Entries.get? name (own.sections.members part) = none →
        (∀ block, Entries.get? name (document.sections.members part) = some block →
          after.Inherits .root part name block) ∧
        ((Entries.get? name (document.sections.members part)).isSome ↔
          ∃ block, after.Inherits .root part name block)) ∧
      ∀ name, (∃ part ∈ functionParts,
          (Entries.get? name (own.sections.members part)).isSome) →
        ((∀ part ∈ functionParts, Entries.get? name (document.sections.members part) =
            Entries.get? name (own.sections.members part)) ↔
          ¬∃ part ∈ functionParts, Entries.get? name (own.sections.members part) = none ∧
            ∃ block, after.Inherits .root part name block) := by
  obtain ⟨sound, grows⟩ := history.sound_and_grows (.start subject mergesParents)
  have root_merging : (merge <|> ((afterTurns (start subject mergesParents) turns).model
      .root).mergesParents).getD false = true := by
    rw [(grows.model_grows .root (has_root _)).mergesParents_eq]
    exact merging
  obtain ⟨own, inherited, own_eq, rfl, holds⟩ :=
    sound.inherited_of_document (has_root _) root_merging returns (.refl after)
  rw [grows.subject_eq (has_root _)] at own_eq
  have merged := Sections.get?_overlay (Subject.distinct_of_plainDocument own_eq) inherited
  have absent : ∀ part name, Entries.get? name (own.sections.members part) = none →
      ((Entries.get? name ((inherited.overlay own.sections).members part)).isSome ↔
        ∃ block, after.Inherits .root part name block) := by
    intro part name missing
    rw [merged, missing, Option.none_or]
    constructor
    · intro found
      obtain ⟨block, found⟩ := Option.isSome_iff_exists.mp found
      exact ⟨block, holds.listed_of_get? part name block found⟩
    · rintro ⟨block, inherits⟩
      exact holds.isSome_of_listed part name block inherits
  refine ⟨own, own_eq, ?_, ?_, ?_⟩
  · intro part name block found
    rw [merged, found, Option.some_or]
  · intro part name missing
    refine ⟨?_, absent part name missing⟩
    intro block found
    rw [merged, missing, Option.none_or] at found
    exact holds.listed_of_get? part name block found
  · intro name _
    constructor
    · rintro replaces ⟨part, member, missing, inherits⟩
      have kept := (absent part name missing).mpr inherits
      rw [replaces part member, missing] at kept
      cases kept
    · intro unopposed part member
      rw [merged]
      cases found : Entries.get? name (own.sections.members part) with
      | some block => rfl
      | none =>
          rw [Option.none_or, ← Option.not_isSome_iff_eq_none]
          intro kept
          refine unopposed ⟨part, member, found, (absent part name found).mp ?_⟩
          rw [merged, found, Option.none_or]
          exact kept

/-- The source of a contract with a function that may change the state. -/
def changingSources : Entries String Import.StoredSource := [
  ("p", ⟨"pragma solidity 1;contract P { function f() public {} }", none⟩)]

/-- A child whose function of the same name reads only. -/
def readingBottom : Subject :=
  ⟨"pragma solidity 1;import 'p' as P;contract C is P { function f() public view {} }",
    none, none, false⟩

/-- The function of the parent stays beside the one of the child. -/
theorem reading_function_leaves_inherited :
    ∃ own document after block,
      readingBottom.plainDocument = .ok own ∧
      outcome (Traversal.document (Import.flat changingSources) 3 .root (some true))
        (start readingBottom none) = (.ok document, after) ∧
      (Entries.get? "f" own.sections.constantFunctions).isSome ∧
      Entries.get? "f" own.sections.functions = none ∧
      Entries.get? "f" document.sections.functions = some block ∧
      after.Inherits .root .functions "f" block := by
  have ran :
      (outcome (Traversal.document (Import.flat changingSources) 3 .root (some true))
        (start readingBottom none)).1.toOption.map
          (fun document => (Entries.get? "f" document.sections.functions).isSome) =
            some true ∧
      readingBottom.plainDocument.toOption.map (fun own =>
        ((Entries.get? "f" own.sections.constantFunctions).isSome,
          Entries.get? "f" own.sections.functions)) = some (true, none) := by
    decide +kernel
  rcases outcome_eq : outcome
    (Traversal.document (Import.flat changingSources) 3 .root (some true))
    (start readingBottom none) with ⟨result, after⟩
  rw [outcome_eq] at ran
  cases result with
  | error failure => cases ran.1
  | ok document =>
      obtain ⟨own, own_eq, _, absent, _⟩ := own_member_overrides_in_its_section
        (Import.flat changingSources) readingBottom none (some true) rfl [] trivial 3 document
        after outcome_eq
      have returned := Option.some.inj ran.1
      obtain ⟨block, found⟩ := Option.isSome_iff_exists.mp returned
      rw [own_eq] at ran
      obtain ⟨reads, missing⟩ := Prod.mk.inj (Option.some.inj ran.2)
      exact ⟨own, document, after, block, own_eq, rfl, reads, missing, found,
        (absent .functions "f" missing).1 block found⟩

end Traversal
end ContractDoc
