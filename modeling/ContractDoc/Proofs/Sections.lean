import ContractDoc.Proofs.Derivation
import ContractDoc.Proofs.Entries

/-!
# The sections of a document

The three sections of a document are treated alike.  The own members of a contract
have distinct names in each of them, and their tags are those of their comments.
Where one document is laid over another, its members are found first, and together
the sections hold what each of them held.
-/

namespace ContractDoc
namespace Sections

/-- The sections of a document. -/
inductive Part where
  | events
  | functions
  | constantFunctions
  deriving DecidableEq, Repr

/-- The kind of the members in a section. -/
def Part.kind : Part → MemberKind
  | events => .event
  | functions => .function
  | constantFunctions => .constantFunction

/-- The members in a section by name. -/
def members (sections : Sections) : Part → Entries String TaggedBlock
  | .events => sections.events
  | .functions => sections.functions
  | .constantFunctions => sections.constantFunctions

@[simp] theorem members_empty (part : Part) : empty.members part = [] := by
  cases part <;> rfl

theorem members_overlay (base changes : Sections) (part : Part) :
    (base.overlay changes).members part =
      Entries.update (base.members part) (changes.members part) := by
  cases part <;> rfl

/-- In each section the members have distinct names. -/
def Distinct (sections : Sections) : Prop :=
  ∀ part, (Entries.keys (sections.members part)).Nodup

theorem distinct_empty : empty.Distinct := by
  intro part
  rw [members_empty]
  exact List.nodup_nil

/-- Laying members over others keeps their names distinct. -/
theorem Distinct.overlay
    {base : Sections}
    (distinct : base.Distinct)
    (changes : Sections) :
    (base.overlay changes).Distinct := by
  intro part
  rw [members_overlay]
  exact Entries.nodup_keys_update (distinct part) _

/-- The members that are laid over others are found first. -/
theorem get?_overlay
    {changes : Sections}
    (distinct : changes.Distinct)
    (base : Sections)
    (part : Part)
    (name : String) :
    Entries.get? name ((base.overlay changes).members part) =
      (Entries.get? name (changes.members part)).or
        (Entries.get? name (base.members part)) := by
  rw [members_overlay, Entries.get?_update (distinct part)]

/-- The sections hold members of a relation only, and one for every name that has any
there. -/
structure Hold (sections : Sections) (listed : Part → String → TaggedBlock → Prop) :
    Prop where
  distinct : sections.Distinct
  listed_of_get? : ∀ part name block,
    Entries.get? name (sections.members part) = some block → listed part name block
  isSome_of_listed : ∀ part name block,
    listed part name block → (Entries.get? name (sections.members part)).isSome

namespace Hold

theorem congr
    {sections : Sections}
    {listed other : Part → String → TaggedBlock → Prop}
    (hold : sections.Hold listed)
    (same : ∀ part name block, listed part name block ↔ other part name block) :
    sections.Hold other where
  distinct := hold.distinct
  listed_of_get? := fun part name block found =>
    (same part name block).mp (hold.listed_of_get? part name block found)
  isSome_of_listed := fun part name block held =>
    hold.isSome_of_listed part name block ((same part name block).mpr held)

/-- Laid over one another, sections hold what one of them held. -/
theorem overlay
    {base changes : Sections}
    {below above : Part → String → TaggedBlock → Prop}
    (hold : base.Hold below)
    (changesHold : changes.Hold above) :
    (base.overlay changes).Hold fun part name block =>
      above part name block ∨ below part name block where
  distinct := hold.distinct.overlay changes
  listed_of_get? := by
    intro part name block found
    rw [get?_overlay changesHold.distinct] at found
    rcases Option.or_eq_some_iff.mp found with changed | ⟨_, kept⟩
    · exact .inl (changesHold.listed_of_get? part name block changed)
    · exact .inr (hold.listed_of_get? part name block kept)
  isSome_of_listed := by
    intro part name block held
    rw [get?_overlay changesHold.distinct, Option.isSome_or, Bool.or_eq_true]
    exact held.imp (changesHold.isSome_of_listed part name block)
      (hold.isSome_of_listed part name block)

end Hold

theorem hold_empty : empty.Hold fun _ _ _ => False where
  distinct := distinct_empty
  listed_of_get? := by
    intro part name block found
    rw [members_empty] at found
    cases found
  isSome_of_listed := fun _ _ _ => False.elim

end Sections

/-- Dividing comments into tags keeps the names of blocks. -/
theorem forall₂_of_tagBlocks
    {blocks : Entries String Block}
    {tagged : Entries String TaggedBlock}
    (divides : tagBlocks blocks = .ok tagged) :
    List.Forall₂ (fun entry result => entry.1 = result.1 ∧ entry.2.tagged = .ok result.2)
      blocks tagged := by
  refine (mapM_eq_ok_iff.mp divides).imp ?_
  rintro ⟨name, block⟩ ⟨found, result⟩ divided
  obtain ⟨value, tags, same⟩ := bind_eq_ok.mp divided
  obtain ⟨rfl, rfl⟩ := Prod.mk.inj (Except.ok.inj same)
  refine ⟨rfl, ?_⟩
  cases known : block.tagged with
  | error failure =>
      rw [known] at tags
      cases tags
  | ok other =>
      rw [known] at tags
      rw [Except.ok.inj tags]

theorem keys_of_tagBlocks
    {blocks : Entries String Block}
    {tagged : Entries String TaggedBlock}
    (divides : tagBlocks blocks = .ok tagged) :
    Entries.keys tagged = Entries.keys blocks := by
  have each := forall₂_of_tagBlocks divides
  clear divides
  unfold Entries.keys
  induction each with
  | nil => rfl
  | cons first _ ih => rw [List.map_cons, List.map_cons, first.1, ih]

namespace Subject

/-- The own members of a contract are the blocks of their kind with the tags of their
comments. -/
theorem members_of_plainDocument
    {subject : Subject}
    {own : Document}
    (documents : subject.plainDocument = .ok own)
    (part : Sections.Part) :
    ∃ blocks, subject.plainBlocks part.kind = .ok blocks ∧
      tagBlocks blocks = .ok (own.sections.members part) := by
  obtain ⟨_, _, _, events, functions, constants⟩ := plainDocument_eq_ok_iff.mp documents
  cases part with
  | events => exact bind_eq_ok.mp events
  | functions => exact bind_eq_ok.mp functions
  | constantFunctions => exact bind_eq_ok.mp constants

/-- The own members of a contract have distinct names in each section. -/
theorem distinct_of_plainDocument
    {subject : Subject}
    {own : Document}
    (documents : subject.plainDocument = .ok own) :
    own.sections.Distinct := by
  intro part
  obtain ⟨blocks, blocks_eq, tagged_eq⟩ := members_of_plainDocument documents part
  obtain ⟨contract, _, table_eq⟩ := bind_eq_ok.mp blocks_eq
  rw [keys_of_tagBlocks tagged_eq, ← Except.ok.inj table_eq]
  exact Entries.nodup_keys_ofList _

/-- A contract itself has a documented member of a name in a section. -/
def Documents
    (subject : Subject)
    (part : Sections.Part)
    (name : String)
    (block : TaggedBlock) : Prop :=
  ∃ own, subject.plainDocument = .ok own ∧
    Entries.get? name (own.sections.members part) = some block

/-- The plain document of a contract holds its own members. -/
theorem hold_plainDocument
    {subject : Subject}
    {own : Document}
    (documents : subject.plainDocument = .ok own) :
    own.sections.Hold subject.Documents where
  distinct := distinct_of_plainDocument documents
  listed_of_get? := fun _ _ _ found => ⟨own, documents, found⟩
  isSome_of_listed := by
    rintro part name block ⟨other, otherDocuments, found⟩
    obtain rfl := Except.ok.inj (documents.symm.trans otherDocuments)
    rw [found]
    rfl

end Subject
end ContractDoc
