import ContractDoc.Source.Item
import ContractDoc.Text.Digit
import ContractDoc.Text.Word
import ContractDoc.Tree.Basic

/-!
# Pragmas

A pragma is a name and a value, which runs to the closing semicolon.  The first
version constraint of the value is its leftmost version number that does not
continue a word, with the relation signs before it.
-/

namespace ContractDoc

open Text

/-- Signs that relate a compiler version to the one of a constraint. -/
def isRelationSign (c : Char) : Bool :=
  c == '^' || c == '~' || c == '<' || c == '>' || c == '='

/-- The longest version number at the start of a text: digits, then groups of a
dot and digits. -/
def leadingVersion : List Char → List Char
  | [] => []
  | c :: rest =>
      if isDigit c then c :: leadingGroups rest else []
where
  /-- The rest of a version number behind one of its digits. -/
  leadingGroups : List Char → List Char
    | [] => []
    | '.' :: c :: rest => if isDigit c then '.' :: c :: leadingGroups rest else []
    | c :: rest => if isDigit c then c :: leadingGroups rest else []

/-- The relation and the version of the first constraint in a text.  `attached`
says whether the text continues a word or a number. -/
def findConstraint (attached : Bool) (text : List Char) :
    Option (List Char × List Char) :=
  match text with
  | [] => none
  | c :: rest =>
      let relation := text.takeWhile isRelationSign
      let version := leadingVersion (skipSpace (text.dropWhile isRelationSign))
      if !attached && !version.isEmpty then some (relation, version)
      else findConstraint (isWordChar c || c == '.') rest

namespace PragmaDecl

/-- The name and the value of a pragma, read from its text. -/
def parts? (text : List Char) : Option (List Char × List Char) := do
  let body ← skipSpace1? (text.drop "pragma".length)
  let name := leadingWord body
  if name.isEmpty || text.getLast? != some ';' then none
  else some (name, strip (afterWord body).dropLast)

/-- Reads a pragma. -/
def ofItem (item : Item) : Except ParseError PragmaDecl :=
  match parts? item.raw with
  | none => item.fail .malformedPragma
  | some (name, value) =>
      let constraint := findConstraint false value
      .ok {
        name := String.ofList name
        value := String.ofList value
        relation := String.ofList ((constraint.map Prod.fst).getD [])
        version := (constraint.map Prod.snd).map String.ofList
        start := item.start.offset
        line := item.line }

end PragmaDecl
end ContractDoc
