import ContractDoc.Source.Position

/-!
# Parse errors

Why a source text cannot be read, and on which line the trouble begins.
-/

namespace ContractDoc

/-- What is wrong with a source text. -/
inductive ParseFault where
  | unterminatedComment
  | unterminatedString
  /-- A closing bracket without its partner. -/
  | unexpected (bracket : Char)
  /-- An opening bracket without its partner. -/
  | unclosed (bracket : Char)
  | unterminatedDeclaration
  | malformedPragma
  | malformedImport
  | malformedContract
  | malformedEvent
  | malformedFunction
  | unclosedEventParameters
  | unclosedFunctionParameters
  | unclosedReturnParameters
  deriving DecidableEq, Repr

/-- The wording of a fault, without its place. -/
def ParseFault.description : ParseFault → String
  | .unterminatedComment => "Unterminated comment"
  | .unterminatedString => "Unterminated string"
  | .unexpected bracket => s!"Unexpected '{bracket}'"
  | .unclosed bracket => s!"Unclosed '{bracket}'"
  | .unterminatedDeclaration => "Unterminated declaration"
  | .malformedPragma => "Malformed pragma"
  | .malformedImport => "Malformed import"
  | .malformedContract => "Malformed contract declaration"
  | .malformedEvent => "Malformed event"
  | .malformedFunction => "Malformed function"
  | .unclosedEventParameters => "Unclosed event parameters"
  | .unclosedFunctionParameters => "Unclosed function parameters"
  | .unclosedReturnParameters => "Unclosed return parameters"

/-- A fault and the line on which it begins. -/
structure ParseError where
  fault : ParseFault
  line : Nat
  deriving DecidableEq, Repr

/-- A description that names its line when one is known. -/
def describeAt (line : Option Int) (description : String) : String :=
  match line with
  | none => description
  | some line => s!"line {line}: {description}"

/-- The wording of a parse error. -/
def ParseError.message (error : ParseError) : String :=
  describeAt (some error.line) error.fault.description

end ContractDoc
