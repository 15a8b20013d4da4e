import ContractDoc.Model.Failure
import ContractDoc.Notice

/-!
# Import resolvers

A resolver turns the path of an import, and the path of the file that holds the
import, into a source text and a canonical path.
-/

namespace ContractDoc

/-- The source of an imported file and its canonical path. -/
structure ResolvedImport where
  source : String
  path : String
  deriving DecidableEq, Repr

/-- The outcome of resolving an import, and what was reported on the way. -/
structure Resolution where
  notices : List Notice
  result : Except Failure ResolvedImport

/-- A way to resolve imports, given the path of an import and the path of the
importing file. -/
abbrev ImportResolver : Type := String → Option String → Resolution

/-- The resolution that fails because there is no such file. -/
def Resolution.unresolved (path : String) (importer : Option String) : Resolution :=
  ⟨[], .error (.unresolvedImport path importer)⟩

end ContractDoc
