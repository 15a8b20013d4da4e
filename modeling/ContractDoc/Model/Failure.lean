import ContractDoc.DocComment.NatSpec
import ContractDoc.File.Error
import ContractDoc.Source.Error

/-!
# Failures

Why the documentation of a contract cannot be made.
-/

namespace ContractDoc

/-- Why the documentation of a contract cannot be made. -/
inductive Failure where
  | parse (error : ParseError)
  | missingPragma (source : String)
  /-- The source declares no contract at all. -/
  | noContract (source : String)
  | contractNotFound (name source : String)
  | unresolvedImport (path : String) (importer : Option String)
  /-- The files of a chain of parents, the last of which occurs before. -/
  | circularInheritance (lineage : List String)
  | comment (error : NatSpec.Error)
  | file (error : FileError)
  /-- The parents are nested too deeply. -/
  | tooDeep
  deriving DecidableEq, Repr

/-- A text, unless it is missing or empty. -/
def nonempty? (text : Option String) : Option String :=
  text.filter (· ≠ "")

/-- The wording of a failure. -/
def Failure.message : Failure → String
  | parse error => error.message
  | missingPragma source => s!"No pragma declared in {source}"
  | noContract source => s!"No contract declared in {source}"
  | contractNotFound name source => s!"Contract '{name}' is not declared in {source}"
  | unresolvedImport path importer =>
      let place := match nonempty? importer with
        | some origin => s!" (imported from {origin})"
        | none => ""
      s!"Cannot resolve import '{path}'{place}"
  | circularInheritance lineage =>
      "Circular inheritance: " ++ " -> ".intercalate lineage
  | comment .paramsIsText => "The entry of a tag is a text where a table is needed"
  | file error => error.message
  | tooDeep => "The parents are nested too deeply"

end ContractDoc
