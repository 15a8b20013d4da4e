import ContractDoc.Proofs.Traversal.Result

/-!
# What a document says about its contract

The name and the constructor of a contract stand in one map with the tags of the comment
above the contract, and a tag replaces an entry of the same name.  The name is the declared
one, and the constructor is the block of the constructor, only as long as no line of the
comment starts with a tag of that name.
-/

namespace ContractDoc

/-- An entry of the part of a document that is about the contract. -/
def Document.contractEntry (document : Document) (key : String) : Option Value :=
  match document.toValue with
  | .map parts =>
      match Entries.get? "contract" parts with
      | some (.map entries) => Entries.get? key entries
      | _ => none
  | _ => none

theorem Document.contractEntry_eq (document : Document) (key : String) :
    document.contractEntry key = Entries.get? key document.contract.entries := rfl

/-- An entry of the contract other than the table of parameters is the text of the tag of its
name, or without such a tag what the contract declares. -/
theorem Document.contractEntry_cases
    (document : Document)
    {key : String}
    (regular : document.contract.tags.Regular)
    (notParams : key ≠ NatSpec.paramsTag) :
    (Entries.get? key document.contract.tags = none ∧
      document.contractEntry key = Entries.get? key [
        ("name", .text document.contract.name),
        ("constructor", (document.contract.constructor.map TaggedBlock.toValue).getD .null)]) ∨
    ∃ content, Entries.get? key document.contract.tags = some (.text content) ∧
      document.contractEntry key = some (.text content) := by
  rw [document.contractEntry_eq, ContractInfo.get?_entries regular]
  cases found : Entries.get? key document.contract.tags with
  | none => exact .inl ⟨rfl, rfl⟩
  | some value =>
      cases value with
      | text content => exact .inr ⟨content, rfl, rfl⟩
      | table descriptions =>
          exact absurd (regular.params_of_table key descriptions found) notParams

/-- The value of the constructor that a contract declares: that of the block of the first
one, or null if there is none. -/
def Subject.IsConstructorValue (subject : Subject) (contract : ContractDecl) (value : Value) :
    Prop :=
  match (Member.select contract.name contract.body .constructor).head? with
  | none => value = .null
  | some member =>
      ∃ block, (Block.ofMember subject.source MemberKind.constructor.label member).tagged =
        .ok block ∧ value = block.toValue

/-- The value of a declared constructor is no text. -/
theorem Subject.IsConstructorValue.ne_text
    {subject : Subject}
    {contract : ContractDecl}
    {value : Value}
    (isValue : subject.IsConstructorValue contract value)
    (content : String) :
    value ≠ .text content := by
  unfold IsConstructorValue at isValue
  split at isValue
  · rw [isValue]
    exact nofun
  · obtain ⟨block, -, rfl⟩ := isValue
    exact nofun

/-- What is said about a contract holds the value of its constructor. -/
theorem Subject.isConstructorValue_of_mapM
    {subject : Subject}
    {contract : ContractDecl}
    {constructor : Option TaggedBlock}
    (tagged : ((Member.select contract.name contract.body .constructor).head?.map
      (Block.ofMember subject.source MemberKind.constructor.label)).mapM Block.tagged =
        .ok constructor) :
    subject.IsConstructorValue contract
      ((constructor.map TaggedBlock.toValue).getD .null) := by
  unfold IsConstructorValue
  cases first : (Member.select contract.name contract.body .constructor).head? with
  | none =>
      rw [first] at tagged
      obtain rfl := Except.ok.inj tagged
      rfl
  | some member =>
      rw [first, Option.map_some, Option.mapM_some] at tagged
      cases divided :
          (Block.ofMember subject.source MemberKind.constructor.label member).tagged with
      | error failure =>
          rw [divided] at tagged
          cases tagged
      | ok block =>
          rw [divided] at tagged
          obtain rfl := Except.ok.inj tagged
          exact ⟨block, divided, rfl⟩

/-- But for the title, the tags of a contract are those of the comment above it. -/
theorem Subject.get?_of_tagsOf
    {subject : Subject}
    {contract : ContractDecl}
    {tags : NatSpec}
    (divides : subject.tagsOf contract = .ok tags) :
    ∃ found, NatSpec.ofText (DocComment.find subject.source contract.start) = .ok found ∧
      ∀ key, key ≠ "title" → Entries.get? key tags = Entries.get? key found := by
  obtain ⟨found, divided, titled⟩ := bind_eq_ok.mp divides
  refine ⟨found, divided, ?_⟩
  intro key untitled
  split at titled
  · rw [← Except.ok.inj titled, Entries.get?_insert_of_ne untitled]
  · rw [← Except.ok.inj titled, Entries.get?_insert_of_ne untitled]
  · rw [← Except.ok.inj titled]

namespace Traversal

/-- What a document says about its contract is derived from the source of the contract. -/
theorem Sound.plainContractInfo_of_document
    {resolver : ImportResolver}
    {depth : Nat}
    {before after : Traversal}
    {ref : ModelRef}
    {merge : Option Bool}
    {document : Document}
    (sound : before.Sound)
    (present : before.Has ref)
    (returns : outcome (Traversal.document resolver depth ref merge) before =
      (.ok document, after)) :
    (before.model ref).subject.plainContractInfo = .ok document.contract := by
  cases merging : (merge <|> (before.model ref).mergesParents).getD false with
  | false =>
      have plain := sound.plain_of_document present merging returns
      exact (Subject.plainDocument_eq_ok_iff.mp plain).1
  | true =>
      obtain ⟨own, inherited, own_eq, rfl, -⟩ :=
        sound.inherited_of_document present merging returns (.refl after)
      exact (Subject.plainDocument_eq_ok_iff.mp own_eq).1

/-- **Tags replace the name and the constructor of a contract.**  In every document that is
returned after a history of calls, the entry of the name is the declared one exactly if no
line of the comment above the contract starts with the tag `name`, or if the text of this tag
happens to be the declared name.  The entry of the constructor is the value of the declared
constructor exactly if no line starts with the tag `constructor`.  Where there is such a tag,
its text is the entry. -/
theorem contract_entries_unless_tagged
    (resolver : ImportResolver)
    (subject : Subject)
    (mergesParents merge : Option Bool)
    (turns : List Turn)
    (history : History (start subject mergesParents) turns)
    (ref : ModelRef)
    (present : (afterTurns (start subject mergesParents) turns).Has ref)
    (depth : Nat)
    (document : Document)
    (after : Traversal)
    (returns : outcome (Traversal.document resolver depth ref merge)
      (afterTurns (start subject mergesParents) turns) = (.ok document, after)) :
    let documented := ((afterTurns (start subject mergesParents) turns).model ref).subject
    ∃ contract constructor tags,
      documented.plainContract = .ok contract ∧
      documented.IsConstructorValue contract constructor ∧
      let comment := DocComment.find documented.source contract.start
      NatSpec.ofText comment = .ok tags ∧
      (document.contractEntry "name" = some (.text contract.name) ↔
        (¬∃ line ∈ Text.lines comment.toList, NatSpec.GivesTag line "name") ∨
          Entries.get? "name" tags = some (.text contract.name)) ∧
      (document.contractEntry "constructor" = some constructor ↔
        ¬∃ line ∈ Text.lines comment.toList, NatSpec.GivesTag line "constructor") ∧
      ∀ key ∈ ["name", "constructor"],
        (∃ line ∈ Text.lines comment.toList, NatSpec.GivesTag line key) →
          ∃ content, Entries.get? key tags = some (.text content) ∧
            document.contractEntry key = some (.text content) := by
  intro documented
  have sound := (history.sound_and_grows (.start subject mergesParents)).1
  have regular := (sound.regular_of_document present returns).contract
  obtain ⟨contract, chosen, name_eq, tagged, divides⟩ := Subject.plainContractInfo_eq_ok_iff.mp
    (sound.plainContractInfo_of_document present returns)
  have isValue := Subject.isConstructorValue_of_mapM tagged
  obtain ⟨tags, divided, untitled⟩ := Subject.get?_of_tagsOf divides
  have gives (key : String) (unreserved : key ∉ NatSpec.reservedTags) :=
    NatSpec.isSome_get?_of_ofText divided unreserved
  have entry (key : String) (untitledKey : key ≠ "title")
      (unreserved : key ∉ NatSpec.reservedTags) :=
    untitled key untitledKey ▸ document.contractEntry_cases regular
      (fun isParams => unreserved (by rw [isParams]; decide))
  refine ⟨contract, _, tags, chosen, isValue, divided, ?_, ?_, ?_⟩
  · rw [← gives "name" (by decide)]
    rcases entry "name" (by decide) (by decide) with ⟨absent, stands⟩ | ⟨content, found, stands⟩
    · rw [stands, absent, ← name_eq]
      simp [Entries.get?]
    · rw [stands, found]
      simp
  · rw [← gives "constructor" (by decide)]
    rcases entry "constructor" (by decide) (by decide) with ⟨absent, stands⟩ |
      ⟨content, found, stands⟩
    · rw [stands, absent]
      simp [Entries.get?]
    · rw [stands, found]
      simpa using (isValue.ne_text content).symm
  · intro key listed given
    have plainKeys : ∀ key ∈ ["name", "constructor"],
        key ≠ "title" ∧ key ∉ NatSpec.reservedTags := by
      decide
    obtain ⟨untitledKey, unreserved⟩ := plainKeys key listed
    rw [← gives key unreserved] at given
    rcases entry key untitledKey unreserved with ⟨absent, -⟩ | stands
    · rw [absent] at given
      cases given
    · exact stands

/-- A contract whose comment has a tag for its name and one for its constructor. -/
def forgedSubject : Subject :=
  ⟨"pragma solidity 1;\n/// @name Forged\n/// @constructor none\n" ++
      "contract C \x7b constructor() public \x7b\x7d \x7d",
    none, none, false⟩

/-- The document names the contract as its comment does, and has a text for its constructor. -/
theorem forged_contract_entries :
    ∃ contract constructor document after,
      forgedSubject.plainContract = .ok contract ∧ contract.name = "C" ∧
      forgedSubject.IsConstructorValue contract constructor ∧
      outcome (Traversal.document (Import.flat []) 1 .root none) (start forgedSubject none) =
        (.ok document, after) ∧
      document.contractEntry "name" = some (.text "Forged") ∧
      document.contractEntry "constructor" = some (.text "none") ∧
      document.contractEntry "constructor" ≠ some constructor := by
  have ran :
      (outcome (Traversal.document (Import.flat []) 1 .root none)
        (start forgedSubject none)).1.toOption.isSome ∧
      forgedSubject.plainContract.toOption.map (fun contract =>
        let comment := DocComment.find forgedSubject.source contract.start
        (contract.name, Text.lines comment.toList, (NatSpec.ofText comment).toOption)) =
        some ("C", ["@name Forged".toList, "@constructor none".toList],
          some [("name", .text "Forged"), ("constructor", .text "none")]) := by
    decide +kernel
  obtain ⟨documents, contracts⟩ := ran
  rcases returns : outcome (Traversal.document (Import.flat []) 1 .root none)
    (start forgedSubject none) with ⟨result, after⟩
  rw [returns] at documents
  cases result with
  | error failure => cases documents
  | ok document =>
      obtain ⟨contract, constructor, tags, chosen, isValue, divided, -, constructor_iff, tagged⟩ :=
        contract_entries_unless_tagged (Import.flat []) forgedSubject none none [] trivial .root
          trivial 1 document after returns
      change forgedSubject.plainContract = .ok contract at chosen
      change NatSpec.ofText (DocComment.find forgedSubject.source contract.start) = .ok tags
        at divided
      rw [chosen] at contracts
      obtain ⟨name_eq, contracts⟩ := Prod.mk.inj (Option.some.inj contracts)
      obtain ⟨lines_eq, tags_eq⟩ := Prod.mk.inj contracts
      rw [divided] at tags_eq
      obtain rfl := Option.some.inj tags_eq
      have given (key : String) (content : List Char)
          (listed : '@' :: (key.toList ++ ' ' :: content) ∈
            ["@name Forged".toList, "@constructor none".toList])
          (starts : NatSpec.tagLine? ('@' :: (key.toList ++ ' ' :: content)) =
            some (key.toList, content)) :
          ∃ line ∈ Text.lines (DocComment.find forgedSubject.source contract.start).toList,
            NatSpec.GivesTag line key := by
        rw [lines_eq]
        exact ⟨_, listed, content, starts⟩
      have nameGiven := given "name" "Forged".toList (by decide) (by decide)
      have constructorGiven := given "constructor" "none".toList (by decide) (by decide)
      obtain ⟨name, found, nameStands⟩ := tagged "name" (by decide) nameGiven
      obtain ⟨text, foundText, textStands⟩ := tagged "constructor" (by decide) constructorGiven
      cases found
      cases foundText
      refine ⟨contract, constructor, document, after, chosen, name_eq, isValue, rfl, nameStands,
        textStands, ?_⟩
      exact fun same => constructor_iff.mp same constructorGiven

end Traversal
end ContractDoc
