import ContractDoc.Source.Item
import ContractDoc.Tree.Signature

/-!
# Members of a contract

Reading an item of the body of a contract.  Its first word decides whether it is
an event, a function, an item without documentation, or a state variable.
-/

namespace ContractDoc

open Text

namespace EventDecl

/-- Reads an event. -/
def ofItem (item : Item) : Except ParseError EventDecl :=
  let text := item.shown
  let afterKeyword := afterWord text
  let name := leadingWord (skipSpace afterKeyword)
  match startsWithSpace afterKeyword && !name.isEmpty,
      skipSpace (afterWord (skipSpace afterKeyword)) with
  | true, '(' :: rest =>
      match Nesting.enclosed? ('(' :: rest) with
      | none => item.fail .unclosedEventParameters
      | some (params, fromClose) =>
          .ok {
            name := String.ofList name
            params := Parameter.readList params
            isAnonymous := containsWord "anonymous".toList false fromClose
            start := item.start.offset
            line := item.line }
  | _, _ => item.fail .malformedEvent

end EventDecl

namespace FunctionDecl

/-- The words that open a function. -/
def keywords : List String := ["function", "constructor", "fallback", "receive"]

/-- What stands between the parameters of a function and its body or closing
semicolon. -/
def headerOf (fromClose : List Char) : List Char :=
  (fromClose.drop 1).takeWhile fun c => c != '{' && c != ';'

/-- The text before the first returns clause of a header, and the text from its
parenthesis on.  `before` holds the characters read so far, last first, and
`inWord` says whether the last one is a word character. -/
def findReturns (before : List Char) (inWord : Bool) :
    List Char → Option (List Char × List Char)
  | [] => none
  | c :: rest =>
      let fromParen := skipSpace ((c :: rest).drop "returns".length)
      if !inWord && "returns".toList.isPrefixOf (c :: rest) &&
          fromParen.head? == some '(' then
        some (before.reverse, fromParen)
      else findReturns (c :: before) (isWordChar c) rest

/-- The returned values of a header and the header without its returns clause.
The result is `none` when the clause is not closed. -/
def splitReturns? (header : List Char) : Option (List Parameter × List Char) :=
  match findReturns [] false header with
  | none => some ([], header)
  | some (before, fromParen) =>
      (Nesting.enclosed? fromParen).map fun (inside, fromClose) =>
        (Parameter.readList inside, before ++ ' ' :: fromClose.drop 1)

/-- The name of a function that begins with `keyword` and gives `given` as its
name.  Only the keyword `function` takes a name; without one it declares the
fallback function. -/
def nameFor (keyword given : List Char) : List Char :=
  if keyword = "function".toList then
    if given.isEmpty then "fallback".toList else given
  else keyword

/-- Reads a function. -/
def ofItem (item : Item) : Except ParseError FunctionDecl :=
  let text := item.shown
  let keyword := leadingWord text
  let afterKeyword := skipSpace (afterWord text)
  match skipSpace (afterWord afterKeyword) with
  | '(' :: rest =>
      match Nesting.enclosed? ('(' :: rest) with
      | none => item.fail .unclosedFunctionParameters
      | some (params, fromClose) =>
          match splitReturns? (headerOf fromClose) with
          | none => item.fail .unclosedReturnParameters
          | some (returns, header) =>
              .ok {
                name := String.ofList (nameFor keyword (leadingWord afterKeyword))
                params := Parameter.readList params
                modifiers := Modifier.readList header
                returns := returns
                isConstructor := keyword == "constructor".toList
                isAbstract := text.getLast? == some ';'
                start := item.start.offset
                line := item.line }
  | _ => item.fail .malformedFunction

end FunctionDecl

namespace VariableDecl

/-- Words that may stand before the name of a state variable. -/
def attributes : List String :=
  ["public", "private", "internal", "constant", "immutable", "override"]

/-- Words that may follow the parameters of a function type. -/
def functionTypeAttributes : List String :=
  ["external", "internal", "payable", "view", "pure", "constant"]

/-- Words that may end the declaration of an unnamed function. -/
def functionAttributes : List String :=
  functionTypeAttributes ++ ["public", "private", "virtual", "override"]

/-- The tokens of a declaration without its semicolon, up to its initializer. -/
def tokensOf (text : List Char) : List (List Char) :=
  Nesting.tokens (Nesting.closeUp (strip (Nesting.beforeAssignment text)))

/-- Whether an item that begins with the word `function` declares a variable of
a function type: it ends with an identifier that is no attribute. -/
def hasFunctionType (text : List Char) : Bool :=
  let afterKeyword := text.drop "function".length
  let named := "function".toList.isPrefixOf text && startsWithSpace afterKeyword &&
    (skipSpace afterKeyword).head?.any isIdentifierStart
  let tokens := tokensOf text.dropLast
  !named && text.getLast? == some ';' && 1 < tokens.length &&
    tokens.getLast?.any fun token =>
      isIdentifier token && !isOneOf functionAttributes token

/-- How many of the tokens between the first one and the name continue the type.
A function type takes its own attributes and its returns clause. -/
def typeLength (first : List Char) (middle : List (List Char)) : Nat :=
  if "function(".toList.isPrefixOf first then
    (middle.takeWhile fun token =>
      isOneOf functionTypeAttributes token ||
        "returns(".toList.isPrefixOf token).length
  else 0

/-- Reads a state variable; `none` when the item does not have the form of one. -/
def ofItem? (item : Item) : Option VariableDecl :=
  match tokensOf item.shown.dropLast with
  | first :: second :: rest =>
      let name := (second :: rest).getLastD []
      if isIdentifier name then
        let middle := (second :: rest).dropLast
        let typeCount := typeLength first middle
        let others := middle.drop typeCount
        let words := others.filter (isOneOf attributes)
        let visibility := words.find? (isOneOf ["public", "private", "internal"])
        some {
          name := String.ofList name
          typeName := spaced (first :: middle.take typeCount ++
            others.filter (!isOneOf attributes ·))
          visibility := (visibility.map String.ofList).getD "internal"
          isConstant := words.any (isOneOf ["constant"])
          start := item.start.offset
          line := item.line }
      else none
  | _ => none

end VariableDecl

namespace Member

/-- First words of items that are never documented. -/
def undocumented : List String :=
  ["modifier", "struct", "enum", "using", "error", "type"]

/-- What an item of a contract body turns out to be. -/
inductive Reading where
  | member (decl : Member)
  /-- An item that has no documentation. -/
  | ignored
  /-- An item that looks like no declaration at all. -/
  | unrecognised
  deriving DecidableEq, Repr

/-- The member of a reading, if it is one. -/
def Reading.toMember? : Reading → Option Member
  | member decl => some decl
  | ignored => none
  | unrecognised => none

/-- Reads an item as a state variable. -/
def readVariable (item : Item) : Reading :=
  match VariableDecl.ofItem? item with
  | some decl => .member (.stateVariable decl)
  | none => .unrecognised

/-- Reads an item of a contract body. -/
def read (item : Item) : Except ParseError Reading :=
  let text := item.shown
  let keyword := leadingWord text
  if keyword = "event".toList then
    return .member (.event (← EventDecl.ofItem item))
  else if keyword = "function".toList && VariableDecl.hasFunctionType text then
    return readVariable item
  else if isOneOf FunctionDecl.keywords keyword then
    return .member (.function (← FunctionDecl.ofItem item))
  else if isOneOf undocumented keyword || text.getLast? != some ';' then
    return .ignored
  else
    return readVariable item

end Member
end ContractDoc
