import ContractDoc.Tree.Basic
import ContractDoc.Value.Basic

/-!
# Declarations as plain values

A declaration is written as a map that begins with its type and goes on with its
fields.
-/

namespace ContractDoc

/-- A modifier as a map. -/
def Modifier.toValue (modifier : Modifier) : Value :=
  .map [("name", .text modifier.name), ("arguments", .ofText? modifier.arguments)]

/-- A parameter as a map. -/
def Parameter.toValue (parameter : Parameter) : Value :=
  .map [
    ("type", .text parameter.typeName),
    ("name", .ofText? parameter.name),
    ("storage_location", .ofText? parameter.location),
    ("indexed", .bool parameter.indexed)]

/-- A list of parameters. -/
def Parameter.listToValue (parameters : List Parameter) : Value :=
  .list (parameters.map Parameter.toValue)

/-- The entries of a pragma. -/
def PragmaDecl.entries (decl : PragmaDecl) : Entries String Value :=
  [("type", .text "PragmaStatement"),
    ("name", .text decl.name),
    ("value", .text decl.value),
    ("operator", .text decl.relation),
    ("version", .ofText? decl.version),
    ("start", .ofNat decl.start),
    ("line", .ofNat decl.line)]

/-- An imported symbol as a map. -/
def ImportedSymbol.toValue (symbol : ImportedSymbol) : Value :=
  .map [("name", .text symbol.name), ("alias", .ofText? symbol.localName)]

/-- The entries of an import. -/
def ImportDecl.entries (decl : ImportDecl) : Entries String Value :=
  [("type", .text "ImportStatement"),
    ("alias", .ofText? decl.localName),
    ("symbols", .list (decl.symbols.map ImportedSymbol.toValue)),
    ("start", .ofNat decl.start),
    ("line", .ofNat decl.line),
    ("from", .text decl.path)]

/-- The entries of an event. -/
def EventDecl.entries (decl : EventDecl) : Entries String Value :=
  [("type", .text "EventDeclaration"),
    ("name", .text decl.name),
    ("params", Parameter.listToValue decl.params),
    ("is_anonymous", .bool decl.isAnonymous),
    ("start", .ofNat decl.start),
    ("line", .ofNat decl.line)]

/-- The entries of a function. -/
def FunctionDecl.entries (decl : FunctionDecl) : Entries String Value :=
  [("type", .text "FunctionDeclaration"),
    ("name", .text decl.name),
    ("params", Parameter.listToValue decl.params),
    ("modifiers", .list (decl.modifiers.map Modifier.toValue)),
    ("returns", Parameter.listToValue decl.returns),
    ("is_constructor", .bool decl.isConstructor),
    ("is_abstract", .bool decl.isAbstract),
    ("start", .ofNat decl.start),
    ("line", .ofNat decl.line)]

/-- The entries of a state variable. -/
def VariableDecl.entries (decl : VariableDecl) : Entries String Value :=
  [("type", .text "DeclarativeExpression"),
    ("name", .text decl.name),
    ("type_name", .text decl.typeName),
    ("visibility", .text decl.visibility),
    ("is_public", .bool decl.isPublic),
    ("is_constant", .bool decl.isConstant),
    ("start", .ofNat decl.start),
    ("line", .ofNat decl.line)]

/-- The entries of a member. -/
def Member.entries : Member → Entries String Value
  | event decl => decl.entries
  | function decl => decl.entries
  | stateVariable decl => decl.entries

/-- The entries of a contract. -/
def ContractDecl.entries (decl : ContractDecl) : Entries String Value :=
  [("type", .text "ContractStatement"),
    ("name", .text decl.name),
    ("kind", .text decl.kind.keyword),
    ("parents", .list (decl.parents.map .text)),
    ("body", .list (decl.body.map fun member => .map member.entries)),
    ("is_abstract", .bool decl.isAbstract),
    ("start", .ofNat decl.start),
    ("end", .ofNat decl.stop),
    ("line", .ofNat decl.line)]

/-- The entries of a declaration. -/
def Declaration.entries : Declaration → Entries String Value
  | pragma decl => decl.entries
  | importing decl => decl.entries
  | contract decl => decl.entries

/-- A source file as a map. -/
def SourceUnit.toValue (tree : SourceUnit) : Value :=
  .map [
    ("type", .text "SourceUnit"),
    ("body", .list (tree.body.map fun declaration => .map declaration.entries))]

end ContractDoc
