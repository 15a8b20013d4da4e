import ContractDoc.Notice
import ContractDoc.Text.Segment
import ContractDoc.Tree.Value

/-!
# Import tables and parents

Every import of a file gives one name to the file that it takes in.  A parent of
a contract is looked up by that name.
-/

namespace ContractDoc

open Text

/-- The name that an import gives to a file. -/
structure ImportEntry where
  path : String
  /-- The name by which the file is known here. -/
  localName : String
  /-- The name of the file itself. -/
  defaultName : String
  deriving DecidableEq, Repr

/-- The last segment of a path without the extension of source files. -/
def contractNameOfPath (path : String) : String :=
  let name := afterLast '/' path.toList
  String.ofList
    (if endsWith name ".sol".toList then name.take (name.length - ".sol".length)
    else name)

namespace ImportEntry

/-- The entry of an import. -/
def ofDecl (decl : ImportDecl) : ImportEntry where
  path := decl.path
  localName := decl.localName.getD (contractNameOfPath decl.path)
  defaultName := contractNameOfPath decl.path

/-- An entry as a map. -/
def toValue (entry : ImportEntry) : Value :=
  .map [
    ("from", .text entry.path),
    ("alias", .text entry.localName),
    ("defaultAlias", .text entry.defaultName)]

end ImportEntry

/-- The import table of a file, in the order of its imports. -/
def importTable (imports : List ImportDecl) : List ImportEntry :=
  imports.map ImportEntry.ofDecl

/-- The path of the first import that gives a name. -/
def importPathFor? (table : List ImportEntry) (name : String) : Option String :=
  (table.find? (·.localName == name)).map (·.path)

/-- The parents of a contract with the paths of their imports. -/
def resolveParents (names : List String) (table : List ImportEntry) :
    Entries String (Option String) :=
  Entries.ofList (names.map fun name => (name, importPathFor? table name))

/-- A notice for each parent that no import names. -/
def unmatchedParents (names : List String) (table : List ImportEntry) : List Notice :=
  (names.filter fun name => (importPathFor? table name).isNone).map .unmatchedParent

end ContractDoc
