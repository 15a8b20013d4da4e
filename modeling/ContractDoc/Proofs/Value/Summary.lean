import ContractDoc.Model.Document
import ContractDoc.Proofs.DocComment.Tags
import ContractDoc.Proofs.Sections
import ContractDoc.Value.Summary

/-!
# When a document has a summary

The summary of a document needs notices that are texts, which they always are, and a
constructor that is a block.  A tag of the contract may stand in the place of its
constructor; the summary fails then, unless the tag is empty.
-/

namespace ContractDoc

/-- The value of a tag is found under its name. -/
theorem NatSpec.get?_entries (tags : NatSpec) (name : String) :
    Entries.get? name tags.entries = (Entries.get? name tags).map TagValue.toValue :=
  Entries.get?_map TagValue.toValue tags name

/-- An entry of a contract is the tag of its name, if there is one. -/
theorem ContractInfo.get?_entries
    {info : ContractInfo}
    (regular : info.tags.Regular)
    (key : String) :
    Entries.get? key info.entries =
      ((Entries.get? key info.tags).map TagValue.toValue).or
        (Entries.get? key [
          ("name", .text info.name),
          ("constructor", (info.constructor.map TaggedBlock.toValue).getD .null)]) := by
  have keys_eq : Entries.keys info.tags.entries = Entries.keys info.tags := by
    simp [Entries.keys, NatSpec.entries]
  have distinct : (Entries.keys info.tags.entries).Nodup := by
    rw [keys_eq]
    exact regular.distinct
  unfold ContractInfo.entries
  rw [Entries.get?_update distinct, NatSpec.get?_entries]

namespace TaggedBlock

/-- What the comment adds is found in the entries of a block. -/
theorem get?_entries
    {block : TaggedBlock}
    {key : String}
    {value : Value}
    (found : Entries.get? key [
      ("name", .text block.block.name),
      ("kind", .text block.block.kind),
      ("annotation", .text block.block.comment),
      ("natspec", .map block.tags.entries)] = some value) :
    Entries.get? key block.entries = some value := by
  have distinct : ["name", "kind", "annotation", "natspec"].Nodup := by decide
  refine (Entries.get?_update (by exact distinct) block.block.member.entries key).trans ?_
  rw [found, Option.some_or]

theorem get?_name (block : TaggedBlock) :
    Entries.get? "name" block.entries = some (.text block.block.name) :=
  get?_entries rfl

theorem get?_natspec (block : TaggedBlock) :
    Entries.get? "natspec" block.entries = some (.map block.tags.entries) :=
  get?_entries rfl

end TaggedBlock

/-- All tags in a document are regular. -/
structure Document.Regular (document : Document) : Prop where
  contract : document.contract.tags.Regular
  members : ∀ part, ∀ entry ∈ document.sections.members part, entry.2.tags.Regular

/-- A tag of the contract stands in the place of the constructor. -/
def Document.HidesConstructor (document : Document) : Prop :=
  ∃ content, content ≠ "" ∧
    Entries.get? "constructor" document.contract.tags = some (.text content)

namespace Summary

variable {document : Document}

/-- A part that is a map has the entries of the map. -/
theorem partUnder_of_map
    {key : String}
    {entries part : Entries String Value}
    (found : Entries.get? key entries = some (.map part)) :
    partUnder key entries = .ok part := by
  unfold partUnder
  rw [found]
  cases part with
  | nil => rfl
  | cons entry rest => rfl

/-- A block with regular tags has a first line of its notice. -/
theorem exists_noticeOf
    {block : TaggedBlock}
    (regular : block.tags.Regular) :
    ∃ notice, noticeOf block.toValue = .ok notice := by
  have tags_eq : entriesUnder "natspec" block.entries = .ok block.tags.entries := by
    unfold entriesUnder
    rw [block.get?_natspec]
    rfl
  have value_eq := NatSpec.get?_entries block.tags "notice"
  cases found : Entries.get? "notice" block.tags with
  | none =>
      rw [found] at value_eq
      refine ⟨"", bind_eq_ok.mpr ⟨_, rfl, bind_eq_ok.mpr ⟨_, tags_eq, ?_⟩⟩⟩
      rw [value_eq]
      rfl
  | some value =>
      cases value with
      | table descriptions =>
          exact absurd (regular.params_of_table _ _ found) (by decide)
      | text content =>
          rw [found] at value_eq
          refine ⟨if content = "" then "" else firstLine content,
            bind_eq_ok.mpr ⟨_, rfl, bind_eq_ok.mpr ⟨_, tags_eq, ?_⟩⟩⟩
          rw [value_eq]
          by_cases empty : content = ""
          · subst empty
            rfl
          · simp [TagValue.toValue, Value.isTruthy, empty]
            rfl

/-- A section in which all tags are regular has lines. -/
theorem exists_sectionLines
    {members : Entries String TaggedBlock}
    (regular : ∀ entry ∈ members, entry.2.tags.Regular)
    (label : String)
    {key : String}
    {entries : Entries String Value}
    (found : Entries.get? key entries = some (Document.sectionValue members)) :
    ∃ lines, sectionLines label key entries = .ok lines := by
  have each : ∀ entry ∈ members.map fun entry => (entry.1, entry.2.toValue),
      ∃ line, memberLine entry.1 entry.2 = .ok line := by
    intro entry member
    obtain ⟨⟨name, block⟩, listed, rfl⟩ := List.mem_map.mp member
    obtain ⟨notice, notice_eq⟩ := exists_noticeOf (regular _ listed)
    exact ⟨_, bind_eq_ok.mpr ⟨notice, notice_eq, rfl⟩⟩
  obtain ⟨lines, lines_eq⟩ := exists_mapM_eq_ok_iff.mpr each
  exact ⟨_, bind_eq_ok.mpr ⟨_, partUnder_of_map found, bind_eq_ok.mpr ⟨lines, lines_eq, rfl⟩⟩⟩

/-- The lines of the constructor are there unless a tag hides it.  The tag comes first, and it
holds a text since it is not the one of the parameters. -/
theorem exists_constructorLines_iff
    (regular : document.contract.tags.Regular) :
    (∃ lines, constructorLines document.contract.entries = .ok lines) ↔
      ¬document.HidesConstructor := by
  have value_eq : Entries.get? "constructor" document.contract.entries =
      ((Entries.get? "constructor" document.contract.tags).map TagValue.toValue).or
        (some ((document.contract.constructor.map TaggedBlock.toValue).getD .null)) :=
    ContractInfo.get?_entries regular "constructor"
  unfold constructorLines Document.HidesConstructor
  rw [value_eq]
  cases found : Entries.get? "constructor" document.contract.tags with
  | none =>
      constructor
      · rintro - ⟨content, _, hidden⟩
        cases hidden
      · intro _
        cases document.contract.constructor with
        | none => exact ⟨[], rfl⟩
        | some block =>
            have truthy : block.toValue.isTruthy = true := by
              have named := Entries.mem_of_get? block.get?_name
              unfold TaggedBlock.toValue Value.isTruthy
              cases entries_eq : block.entries with
              | nil => simp [entries_eq] at named
              | cons entry rest => rfl
            refine ⟨["  Constructor:", s!"    - {block.block.name}"], ?_⟩
            simp only [Option.map_none, Option.none_or, Option.map_some, Option.getD_some,
              truthy, if_true]
            simp only [TaggedBlock.toValue, block.get?_name]
            rfl
  | some value =>
      cases value with
      | table descriptions =>
          exact absurd (regular.params_of_table _ _ found) (by decide)
      | text content =>
          by_cases empty : content = ""
          · subst empty
            refine ⟨?_, fun _ => ⟨[], rfl⟩⟩
            rintro - ⟨content, nonempty, ⟨⟩⟩
            exact nonempty rfl
          · constructor
            · rintro ⟨lines, shown⟩
              simp [TagValue.toValue, Value.isTruthy, empty] at shown
            · intro clear
              exact absurd ⟨content, empty, rfl⟩ clear

/-- A document with regular tags has a summary unless a tag hides the constructor. -/
theorem exists_write_iff (regular : document.Regular) :
    (∃ text, write document.toValue = .ok text) ↔ ¬document.HidesConstructor := by
  rw [← exists_constructorLines_iff regular.contract]
  constructor
  · rintro ⟨text, written⟩
    obtain ⟨entries, entries_eq, written⟩ := bind_eq_ok.mp written
    obtain rfl := Except.ok.inj entries_eq
    obtain ⟨contract, contract_eq, written⟩ := bind_eq_ok.mp written
    obtain rfl := Except.ok.inj contract_eq
    obtain ⟨source, _, written⟩ := bind_eq_ok.mp written
    obtain ⟨parents, _, written⟩ := bind_eq_ok.mp written
    obtain ⟨lines, lines_eq, _⟩ := bind_eq_ok.mp written
    exact ⟨lines, lines_eq⟩
  · rintro ⟨lines, lines_eq⟩
    obtain ⟨entries, entries_eq⟩ : ∃ entries, document.toValue = .map entries := ⟨_, rfl⟩
    have parts (part : Sections.Part) := regular.members part
    obtain ⟨events, events_eq⟩ := exists_sectionLines (parts .events) "Events"
      (show Entries.get? "events" entries = _ by cases entries_eq; rfl)
    obtain ⟨functions, functions_eq⟩ := exists_sectionLines (parts .functions) "Functions"
      (show Entries.get? "functions" entries = _ by cases entries_eq; rfl)
    obtain ⟨constants, constants_eq⟩ := exists_sectionLines (parts .constantFunctions)
      "Constant Functions"
      (show Entries.get? "constantFunctions" entries = _ by cases entries_eq; rfl)
    cases entries_eq
    exact ⟨_, bind_eq_ok.mpr ⟨_, rfl, bind_eq_ok.mpr ⟨_, rfl, bind_eq_ok.mpr ⟨_, rfl,
      bind_eq_ok.mpr ⟨_, partUnder_of_map rfl, bind_eq_ok.mpr ⟨lines, lines_eq,
        bind_eq_ok.mpr ⟨events, events_eq, bind_eq_ok.mpr ⟨functions, functions_eq,
          bind_eq_ok.mpr ⟨constants, constants_eq, rfl⟩⟩⟩⟩⟩⟩⟩⟩⟩

end Summary
end ContractDoc
