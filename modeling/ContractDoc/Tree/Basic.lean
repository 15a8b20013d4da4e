/-!
# Declarations

The declarations of a source file: pragmas, imports and contracts with their
members.  Every declaration knows the offset at which it starts, so that the
comment above it can be found again, and the line of that offset.
-/

namespace ContractDoc

/-- A word behind the parameters of a function: its visibility, its mutability
or the use of a modifier. -/
structure Modifier where
  name : String
  /-- The text between the parentheses, if there are any. -/
  arguments : Option String
  deriving DecidableEq, Repr

/-- A parameter of a function or an event, or a value that a function returns. -/
structure Parameter where
  typeName : String
  name : Option String
  /-- One of `memory`, `storage` and `calldata`. -/
  location : Option String
  indexed : Bool
  deriving DecidableEq, Repr

/-- A pragma, usually a constraint on the version of the compiler. -/
structure PragmaDecl where
  name : String
  value : String
  /-- The relation of the first version constraint, such as `^`. -/
  relation : String
  version : Option String
  start : Nat
  line : Nat
  deriving DecidableEq, Repr

/-- The first version constraint of a pragma, such as `^0.4.18`. -/
def PragmaDecl.constraint (pragma : PragmaDecl) : String :=
  match pragma.version with
  | none => ""
  | some version => pragma.relation ++ version

/-- A name taken out of an imported file. -/
structure ImportedSymbol where
  name : String
  localName : Option String
  deriving DecidableEq, Repr

/-- An import of another file. -/
structure ImportDecl where
  path : String
  localName : Option String
  symbols : List ImportedSymbol
  start : Nat
  line : Nat
  deriving DecidableEq, Repr

/-- An event of a contract. -/
structure EventDecl where
  name : String
  params : List Parameter
  isAnonymous : Bool
  start : Nat
  line : Nat
  deriving DecidableEq, Repr

/-- A function of a contract. -/
structure FunctionDecl where
  name : String
  params : List Parameter
  modifiers : List Modifier
  returns : List Parameter
  isConstructor : Bool
  /-- Whether the function has no body. -/
  isAbstract : Bool
  start : Nat
  line : Nat
  deriving DecidableEq, Repr

/-- Whether a function has a modifier with one of the given names. -/
def FunctionDecl.hasModifier (function : FunctionDecl) (names : List String) : Bool :=
  function.modifiers.any fun modifier => names.contains modifier.name

/-- A state variable of a contract. -/
structure VariableDecl where
  name : String
  typeName : String
  visibility : String
  isConstant : Bool
  start : Nat
  line : Nat
  deriving DecidableEq, Repr

/-- Whether a state variable has a getter. -/
def VariableDecl.isPublic (state : VariableDecl) : Bool :=
  state.visibility == "public"

/-- A declaration in the body of a contract. -/
inductive Member where
  | event (decl : EventDecl)
  | function (decl : FunctionDecl)
  | stateVariable (decl : VariableDecl)
  deriving DecidableEq, Repr

namespace Member

/-- The declared name of a member. -/
def name : Member → String
  | event decl => decl.name
  | function decl => decl.name
  | stateVariable decl => decl.name

/-- The offset at which a member starts. -/
def start : Member → Nat
  | event decl => decl.start
  | function decl => decl.start
  | stateVariable decl => decl.start

/-- The line on which a member starts. -/
def line : Member → Nat
  | event decl => decl.line
  | function decl => decl.line
  | stateVariable decl => decl.line

end Member

/-- The three kinds of contracts. -/
inductive ContractKind where
  | contract
  | library
  | interface
  deriving DecidableEq, Repr

/-- The keyword of a kind of contract. -/
def ContractKind.keyword : ContractKind → String
  | contract => "contract"
  | library => "library"
  | interface => "interface"

/-- A contract, library or interface. -/
structure ContractDecl where
  name : String
  kind : ContractKind
  parents : List String
  body : List Member
  isAbstract : Bool
  start : Nat
  /-- The offset behind the closing brace. -/
  stop : Nat
  line : Nat
  deriving DecidableEq, Repr

/-- A declaration at the top level of a file. -/
inductive Declaration where
  | pragma (decl : PragmaDecl)
  | importing (decl : ImportDecl)
  | contract (decl : ContractDecl)
  deriving DecidableEq, Repr

/-- The declarations of one file in order. -/
structure SourceUnit where
  body : List Declaration
  deriving DecidableEq, Repr

namespace SourceUnit

/-- The pragmas of a file in order. -/
def pragmas (tree : SourceUnit) : List PragmaDecl :=
  tree.body.filterMap fun
    | .pragma decl => some decl
    | _ => none

/-- The imports of a file in order. -/
def imports (tree : SourceUnit) : List ImportDecl :=
  tree.body.filterMap fun
    | .importing decl => some decl
    | _ => none

/-- The contracts of a file in order. -/
def contracts (tree : SourceUnit) : List ContractDecl :=
  tree.body.filterMap fun
    | .contract decl => some decl
    | _ => none

end SourceUnit
end ContractDoc
