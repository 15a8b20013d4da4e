/-!
# Derivations

The values that are derived from the source of one contract.
-/

namespace ContractDoc

/-- A value derived from the source of a contract. -/
inductive Derivation where
  | tree
  | contract
  | pragma
  | imports
  | parents
  | constructor
  | contractTags
  | events
  | functions
  | constantFunctions
  deriving DecidableEq, Repr

namespace Derivation

/-- All derivations in their fixed order. -/
def all : List Derivation :=
  [tree, contract, pragma, imports, parents, constructor, contractTags, events, functions,
    constantFunctions]

/-- The key by which a derivation is known outside. -/
def key : Derivation → String
  | tree => "syntax_tree"
  | contract => "contract_statement"
  | pragma => "pragma"
  | imports => "imports"
  | parents => "parents"
  | constructor => "constructor"
  | contractTags => "contract_annotation"
  | events => "events"
  | functions => "functions"
  | constantFunctions => "constant_functions"

/-- The derivation with a given key. -/
def ofKey? (key : String) : Option Derivation :=
  all.find? (·.key == key)

end Derivation
end ContractDoc
