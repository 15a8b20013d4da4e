import ContractDoc.Model.Block
import ContractDoc.Model.Cache
import ContractDoc.Model.Failure
import ContractDoc.Model.ImportTable
import ContractDoc.Tree.Parse

/-!
# One contract and what is derived from it

A subject is a contract in a source text.  Everything said here about a contract
is derived from its own file alone; its parents are known by name only.

Each derived value is computed at most once, in the order in which it is first
needed.
-/

namespace ContractDoc

/-- A contract to be documented, by its source and its name. -/
structure Subject where
  source : String
  /-- The path of the source, if it comes from a file. -/
  filePath : Option String
  /-- The wanted contract; the first one of the source if there is no name. -/
  contractName : Option String
  /-- Whether the first contract serves when none has the wanted name. -/
  acceptsFirst : Bool
  deriving DecidableEq, Repr

/-- The type of each derived value. -/
abbrev Derivation.Result : Derivation → Type
  | tree => SourceUnit
  | contract => ContractDecl
  | pragma => String
  | imports => List ImportEntry
  | parents => Entries String (Option String)
  | constructor => Option Block
  | contractTags => NatSpec
  | events => Entries String Block
  | functions => Entries String Block
  | constantFunctions => Entries String Block

/-- Derives a value from the source of a contract. -/
abbrev Derive (α : Type) : Type := Memo Derivation.Result Failure α

/-- What is said about a contract itself. -/
structure ContractInfo where
  name : String
  constructor : Option TaggedBlock
  tags : NatSpec
  deriving DecidableEq, Repr

/-- The entries of a contract.  A tag replaces an entry of the same name. -/
def ContractInfo.entries (info : ContractInfo) : Entries String Value :=
  Entries.update [
      ("name", .text info.name),
      ("constructor", (info.constructor.map TaggedBlock.toValue).getD .null)]
    info.tags.entries

/-- What is said about the file of a contract. -/
structure SourceInfo where
  pragma : String
  imports : List ImportEntry
  deriving DecidableEq, Repr

/-- The entries of a file. -/
def SourceInfo.entries (info : SourceInfo) : Entries String Value :=
  [("pragma", .text info.pragma), ("imports", .list (info.imports.map ImportEntry.toValue))]

namespace Subject

/-- How the source is called in messages. -/
def sourceName (subject : Subject) : String :=
  (nonempty? subject.filePath).getD "<source>"

/-- The contract that is documented, out of those of the file. -/
def choose (subject : Subject) (contracts : List ContractDecl) :
    Except Failure ContractDecl :=
  let wanted := nonempty? subject.contractName
  let found := match subject.contractName with
    | none => contracts.head?
    | some name => contracts.find? (·.name == name)
  match found, wanted, contracts with
  | some contract, _, _ => .ok contract
  | none, some name, contracts =>
      match subject.acceptsFirst, contracts with
      | true, first :: _ => .ok first
      | _, _ => .error (.contractNotFound name subject.sourceName)
  | none, none, _ => .error (.noContract subject.sourceName)

/-- What there is to say about the choice of a contract. -/
def choiceNotices (subject : Subject) (contracts : List ContractDecl) : List Notice :=
  match subject.contractName, contracts with
  | some name, first :: _ =>
      if name ≠ "" ∧ subject.acceptsFirst ∧ contracts.all (·.name != name) then
        [.firstContractUsed name subject.sourceName first.name]
      else []
  | _, _ => []

/-- The version constraint of a file: the one of its compiler pragma, or of its
first pragma. -/
def constraintOf (subject : Subject) (pragmas : List PragmaDecl) :
    Except Failure String :=
  match pragmas.find? (·.name == "solidity") <|> pragmas.head? with
  | none => .error (.missingPragma subject.sourceName)
  | some pragma => .ok pragma.constraint

/-- The tags of a contract; its title is its name unless one is given. -/
def tagsOf (subject : Subject) (contract : ContractDecl) :
    Except NatSpec.Error NatSpec := do
  let tags ← NatSpec.ofText (DocComment.find subject.source contract.start)
  match Entries.get? "title" tags with
  | none | some (.text "") => return Entries.insert "title" (.text contract.name) tags
  | some _ => return tags

/-- The syntax tree of the file. -/
def tree (subject : Subject) : Derive SourceUnit :=
  Memo.get .tree do
    Memo.report (parseNotices subject.source)
    (parse subject.source).mapError Failure.parse

/-- The documented contract. -/
def contract (subject : Subject) : Derive ContractDecl :=
  Memo.get .contract do
    let contracts := (← subject.tree).contracts
    Memo.report (subject.choiceNotices contracts)
    subject.choose contracts

/-- The name of the documented contract. -/
def name (subject : Subject) : Derive String :=
  return (← subject.contract).name

/-- The version constraint of the file. -/
def pragma (subject : Subject) : Derive String :=
  Memo.get .pragma do subject.constraintOf (← subject.tree).pragmas

/-- The import table of the file. -/
def imports (subject : Subject) : Derive (List ImportEntry) :=
  Memo.get .imports do return importTable (← subject.tree).imports

/-- The parents of the contract with the paths of their imports. -/
def parents (subject : Subject) : Derive (Entries String (Option String)) :=
  Memo.get .parents do
    let names := (← subject.contract).parents
    let table ← subject.imports
    Memo.report (unmatchedParents names table)
    return resolveParents names table

/-- The tags of the contract. -/
def contractTags (subject : Subject) : Derive NatSpec :=
  Memo.get .contractTags do
    (subject.tagsOf (← subject.contract)).mapError Failure.comment

/-- The first constructor of the contract. -/
def constructor (subject : Subject) : Derive (Option Block) :=
  Memo.get .constructor do
    let contract ← subject.contract
    let members := Member.select contract.name contract.body .constructor
    return members.head?.map (Block.ofMember subject.source MemberKind.constructor.label)

/-- The blocks of the members of a kind. -/
def blocks (subject : Subject) (kind : MemberKind) : Derive (Entries String Block) := do
  let contract ← subject.contract
  let members := Member.select contract.name contract.body kind
  Memo.report (Block.repetitions contract.name kind.label [] members)
  return Block.table subject.source kind.label members

/-- The events of the contract. -/
def events (subject : Subject) : Derive (Entries String Block) :=
  Memo.get .events (subject.blocks .event)

/-- The functions of the contract that may change the state. -/
def functions (subject : Subject) : Derive (Entries String Block) :=
  Memo.get .functions (subject.blocks .function)

/-- The functions of the contract that only read, and its public variables. -/
def constantFunctions (subject : Subject) : Derive (Entries String Block) :=
  Memo.get .constantFunctions (subject.blocks .constantFunction)

/-- What is said about the contract itself. -/
def contractInfo (subject : Subject) : Derive ContractInfo := do
  let constructor ← subject.constructor
  let name ← subject.name
  let tagged ← (constructor.mapM Block.tagged).mapError Failure.comment
  return ⟨name, tagged, ← subject.contractTags⟩

/-- What is said about the file. -/
def sourceInfo (subject : Subject) : Derive SourceInfo :=
  return ⟨← subject.pragma, ← subject.imports⟩

end Subject
end ContractDoc
