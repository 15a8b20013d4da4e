import ContractDoc.Model.Derivation

/-!
# Notices

What is reported along the way, beside the result.  A notice has a level, the
component it comes from, and a text.
-/

namespace ContractDoc

/-- How much a notice matters. -/
inductive Level where
  | debug
  | warning
  deriving DecidableEq, Repr

/-- The name of a level. -/
def Level.label : Level → String
  | debug => "DEBUG"
  | warning => "WARNING"

/-- Something worth reporting. -/
inductive Notice where
  /-- An item at the top level of a file is no declaration. -/
  | skippedItem (line : Nat)
  /-- An item in the body of a contract is no declaration. -/
  | unrecognisedItem (line : Nat)
  /-- A derived value is about to be computed. -/
  | computing (derivation : Derivation)
  /-- A member replaces an earlier one of the same name and kind. -/
  | repeatedMember (contract kind name : String)
  /-- A parent is named by no import. -/
  | unmatchedParent (name : String)
  /-- The source of a parent has been found. -/
  | loadingParent (child parent path : String)
  /-- A file declares no contract of the wanted name. -/
  | firstContractUsed (wanted source used : String)
  /-- An import has been found on disk. -/
  | resolvedImport (importPath file : String)
  deriving DecidableEq, Repr

namespace Notice

/-- How much a notice matters: only an unmatched parent needs attention. -/
def level : Notice → Level
  | unmatchedParent _ => .warning
  | _ => .debug

/-- The component that a notice comes from. -/
def component : Notice → String
  | skippedItem _ => "soldoc.parser"
  | unrecognisedItem _ => "soldoc.parser"
  | computing _ => "soldoc.structure.cache"
  | repeatedMember .. => "soldoc.structure.blocks"
  | unmatchedParent _ => "soldoc.structure.imports"
  | loadingParent .. => "soldoc.structure.contract"
  | firstContractUsed .. => "soldoc.structure.contract"
  | resolvedImport .. => "soldoc.resolver"

/-- The text of a notice. -/
def message : Notice → String
  | skippedItem line => s!"Skipping top-level item at line {line}"
  | unrecognisedItem line => s!"Unrecognised contract body item at line {line}"
  | computing derivation => "Computing " ++ derivation.key
  | repeatedMember contract kind name =>
      s!"{contract}: {kind} '{name}' declared more than once, keeping the last one"
  | unmatchedParent name => s!"Parent contract '{name}' does not match any import alias"
  | loadingParent child parent path => s!"{child}: loading parent {parent} from {path}"
  | firstContractUsed wanted source used =>
      s!"No contract '{wanted}' in {source}, using '{used}'"
  | resolvedImport importPath file => s!"Resolved import '{importPath}' to {file}"

end Notice
end ContractDoc
