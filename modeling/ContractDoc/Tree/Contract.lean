import ContractDoc.Tree.Member

/-!
# Contracts

Reading the head of a contract and the members in its body.  The name is the
longest one behind which the rest of the head follows: an optional list of
parents and the opening brace.
-/

namespace ContractDoc

open Text

namespace ContractDecl

/-- The kinds of contracts with their keywords. -/
def kinds : List ContractKind := [.contract, .library, .interface]

/-- Whether an item is abstract, its kind, and what follows the keyword. -/
def opening? (text : List Char) : Option (Bool × ContractKind × List Char) :=
  let afterAbstract :=
    if "abstract".toList.isPrefixOf text then skipSpace1? (text.drop "abstract".length)
    else none
  let body := afterAbstract.getD text
  (kinds.find? fun kind => startsWithWord kind.keyword.toList body).map fun kind =>
    (afterAbstract.isSome, kind, body.drop kind.keyword.length)

/-- The text of the list of parents, which may be empty, and what follows the
opening brace. -/
def inheritance? (text : List Char) : Option (List Char × List Char) :=
  let body := skipSpace text
  let listed :=
    if "is".toList.isPrefixOf body then skipSpace1? (body.drop "is".length) else none
  match listed with
  | some list =>
      match list.dropWhile (· != '{') with
      | [] => none
      | _ :: rest => some (dropTrailingSpace (list.takeWhile (· != '{')), rest)
  | none =>
      match body with
      | '{' :: rest => some ([], rest)
      | _ => none

/-- The longest name, of the first `length` characters at most, behind which the
rest of a head follows; with it the list of parents and what follows the
opening brace. -/
def nameUpTo? (text : List Char) :
    (length : Nat) → Option (List Char × List Char × List Char)
  | 0 => none
  | length + 1 =>
      match inheritance? (text.drop (length + 1)) with
      | some (parents, body) => some (text.take (length + 1), parents, body)
      | none => nameUpTo? text length

/-- The name of a parent, without the arguments of its constructor. -/
def parentName (text : List Char) : List Char :=
  text.takeWhile fun c => isWordChar c || c == '.'

/-- The names in a list of parents. -/
def parentNames (text : List Char) : List String :=
  (((Nesting.splitOn ',' text).map parentName).filter (!·.isEmpty)).map String.ofList

/-- The head of a contract. -/
structure Head where
  name : List Char
  kind : ContractKind
  parents : List String
  isAbstract : Bool
  /-- The number of characters up to and with the opening brace. -/
  length : Nat

/-- Reads the head of a contract. -/
def head? (text : List Char) : Option Head := do
  let (isAbstract, kind, rest) ← opening? text
  let rest ← skipSpace1? rest
  let (name, parents, body) ← nameUpTo? rest (leadingWord rest).length
  return ⟨name, kind, parentNames parents, isAbstract, text.length - body.length⟩

/-- The items in the body of a contract whose head has been read. -/
def bodyItems (item : Item) (head : Head) : Except ParseError (List Item) :=
  splitItems (item.start.advanceBy (item.raw.take head.length))
    (item.glyphs.drop head.length).dropLast

/-- Reads the head of a contract and finds the items of its body. -/
def open? (item : Item) : Except ParseError (Head × List Item) :=
  match head? item.shown, item.shown.getLast? with
  | some head, some '}' => return (head, ← bodyItems item head)
  | _, _ => item.fail .malformedContract

/-- Reads a contract. -/
def ofItem (item : Item) : Except ParseError ContractDecl := do
  let (head, items) ← open? item
  let readings ← items.mapM Member.read
  return {
    name := String.ofList head.name
    kind := head.kind
    parents := head.parents
    body := readings.filterMap Member.Reading.toMember?
    isAbstract := head.isAbstract
    start := item.start.offset
    stop := item.stop
    line := item.line }

end ContractDecl
end ContractDoc
