import ContractDoc.DocComment.Find
import ContractDoc.DocComment.NatSpec
import ContractDoc.Notice
import ContractDoc.Tree.Value

/-!
# Documented members

The members of a contract fall into four kinds, and some are left out of the
documentation.  A block is a member together with the comment above it.
-/

namespace ContractDoc

/-- The kinds of documented members. -/
inductive MemberKind where
  | constructor
  | event
  | function
  | constantFunction
  deriving DecidableEq, Repr

namespace MemberKind

/-- All kinds. -/
def all : List MemberKind := [constructor, event, function, constantFunction]

/-- The name of a kind. -/
def label : MemberKind → String
  | constructor => "constructor"
  | event => "event"
  | function => "function"
  | constantFunction => "constant-function"

/-- The kind with a given name. -/
def ofLabel? (label : String) : Option MemberKind :=
  all.find? (·.label == label)

end MemberKind

namespace FunctionDecl

/-- Whether a function is kept out of the documented interface. -/
def isHidden (function : FunctionDecl) : Bool :=
  function.hasModifier ["internal", "private"]

/-- Whether a function promises not to change the state. -/
def isReadOnly (function : FunctionDecl) : Bool :=
  function.hasModifier ["constant", "view", "pure"]

end FunctionDecl

namespace Member

/-- The kind of a member of the contract named `contract`, unless it is not
documented.  A function with the name of the contract is a constructor, and a
public state variable counts as a constant function. -/
def kind? (contract : String) : Member → Option MemberKind
  | function decl =>
      if decl.isConstructor || decl.name == contract then some .constructor
      else if decl.isHidden then none
      else if decl.isReadOnly then some .constantFunction
      else some .function
  | event _ => some .event
  | stateVariable decl => if decl.isPublic then some .constantFunction else none

/-- The members of a kind in order. -/
def select (contract : String) (body : List Member) (kind : MemberKind) : List Member :=
  body.filter fun member => member.kind? contract = some kind

end Member

/-- A member together with the comment above it. -/
structure Block where
  /-- The name of the kind under which the member is documented. -/
  kind : String
  member : Member
  comment : String
  deriving DecidableEq, Repr

namespace Block

/-- The declared name of the member. -/
def name (block : Block) : String :=
  block.member.name

/-- The block of a member of a source text. -/
def ofMember (source : String) (kind : String) (member : Member) : Block :=
  ⟨kind, member, DocComment.find source member.start⟩

/-- The blocks of members by name; the last member of a name is kept. -/
def table (source : String) (kind : String) (members : List Member) :
    Entries String Block :=
  Entries.ofList (members.map fun member => (member.name, ofMember source kind member))

/-- A notice for each member that replaces an earlier one of its name. -/
def repetitions (contract kind : String) (seen : List String) :
    List Member → List Notice
  | [] => []
  | member :: members =>
      let rest := repetitions contract kind (member.name :: seen) members
      if seen.contains member.name then .repeatedMember contract kind member.name :: rest
      else rest

end Block

/-- What stands under a tag as a plain value. -/
def TagValue.toValue : TagValue → Value
  | text content => .text content
  | table descriptions =>
      .map (descriptions.map fun (name, description) => (name, .text description))

/-- The entries of a set of tags. -/
def NatSpec.entries (tags : NatSpec) : Entries String Value :=
  tags.map fun (name, value) => (name, value.toValue)

/-- A block whose comment has been divided into tags. -/
structure TaggedBlock where
  block : Block
  tags : NatSpec
  deriving DecidableEq, Repr

/-- Divides the comment of a block into tags. -/
def Block.tagged (block : Block) : Except NatSpec.Error TaggedBlock :=
  return ⟨block, ← NatSpec.ofText block.comment⟩

/-- The entries of a block: those of the declaration and of its comment. -/
def TaggedBlock.entries (tagged : TaggedBlock) : Entries String Value :=
  Entries.update tagged.block.member.entries [
    ("name", .text tagged.block.name),
    ("kind", .text tagged.block.kind),
    ("annotation", .text tagged.block.comment),
    ("natspec", .map tagged.tags.entries)]

/-- A block as a map. -/
def TaggedBlock.toValue (tagged : TaggedBlock) : Value :=
  .map tagged.entries

end ContractDoc
