import ContractDoc.Source.Item
import ContractDoc.Text.Word
import ContractDoc.Tree.Basic

/-!
# Imports

There are four forms of imports.  The word is followed by the path, by the path
and a local name, by a star with a local name and the path, or by a list of
symbols in braces and the path:

* `"path";`
* `"path" as X;`
* `* as X from "path";`
* `{A, B as C} from "path";`

The path ends at the first quote behind which the rest of the form follows, so
it may hold quotes itself.
-/

namespace ContractDoc

open Text

namespace ImportDecl

/-- What an import says about the file it takes in. -/
structure Clause where
  path : List Char
  localName : Option (List Char)
  symbols : List ImportedSymbol

/-- What follows a word at the start of a text. -/
def afterKeyword? (word : String) (text : List Char) : Option (List Char) :=
  if word.toList.isPrefixOf text then some (text.drop word.length) else none

/-- A name at the start of a text, and what follows it. -/
def name? (text : List Char) : Option (List Char × List Char) :=
  if (leadingWord text).isEmpty then none else some (leadingWord text, afterWord text)

/-- The shortest text before a quote behind which `ending` is accepted, behind
the characters of `before`, which are given last first. -/
def pathBefore? {α : Type} (quote : Char) (ending : List Char → Option α) :
    (before : List Char) → List Char → Option (List Char × α)
  | _, [] => none
  | before, c :: rest =>
      let found := if c = quote ∧ before ≠ [] then ending rest else none
      match found with
      | some value => some (before.reverse, value)
      | none => pathBefore? quote ending (c :: before) rest

/-- A quoted path at the start of a text, behind which `ending` is accepted. -/
def quotedPath? {α : Type} (ending : List Char → Option α) :
    List Char → Option (List Char × α)
  | [] => none
  | quote :: rest =>
      if quote = '"' ∨ quote = '\'' then pathBefore? quote ending [] rest else none

/-- Accepts the closing semicolon. -/
def semicolon? (text : List Char) : Option Unit :=
  if skipSpace text = [';'] then some () else none

/-- Accepts an optional local name and the closing semicolon. -/
def optionalName? (text : List Char) : Option (Option (List Char)) :=
  if skipSpace text = [';'] then some none
  else do
    let afterAs ← afterKeyword? "as" (skipSpace text)
    let (name, rest) ← name? (← skipSpace1? afterAs)
    semicolon? rest
    return some name

/-- Accepts the origin of an import: the word, the path and the semicolon. -/
def origin? (text : List Char) : Option (List Char) := do
  let (path, _) ← quotedPath? semicolon? (← skipSpace1? (← afterKeyword? "from" text))
  return path

/-- Reads the forms that begin with the path. -/
def wholeFile? (text : List Char) : Option Clause := do
  let (path, localName) ← quotedPath? optionalName? (← skipSpace1? text)
  return ⟨path, localName, []⟩

/-- Reads the form that begins with a star. -/
def everything? (text : List Char) : Option Clause := do
  let afterStar ← afterKeyword? "*" (← skipSpace1? text)
  let afterAs ← afterKeyword? "as" (skipSpace afterStar)
  let (name, rest) ← name? (← skipSpace1? afterAs)
  let path ← origin? (← skipSpace1? rest)
  return ⟨path, some name, []⟩

/-- One entry of a list of symbols; an empty one is left out. -/
def symbol? (text : List Char) : Option ImportedSymbol :=
  match words text with
  | [] => none
  | [name, word, localName] =>
      some ⟨String.ofList name,
        if word = "as".toList then some (String.ofList localName) else none⟩
  | name :: _ => some ⟨String.ofList name, none⟩

/-- Reads the form with a list of symbols. -/
def someSymbols? (text : List Char) : Option Clause := do
  let inside ← afterKeyword? "\x7b" (skipSpace text)
  let list := inside.takeWhile (· != '}')
  let afterList ← afterKeyword? "\x7d" (inside.dropWhile (· != '}'))
  let path ← origin? (skipSpace afterList)
  return ⟨path, none, (segments ',' list).filterMap symbol?⟩

/-- Reads any form of import from its text. -/
def clause? (text : List Char) : Option Clause :=
  let rest := text.drop "import".length
  wholeFile? rest <|> everything? rest <|> someSymbols? rest

/-- Reads an import. -/
def ofItem (item : Item) : Except ParseError ImportDecl :=
  match clause? item.raw with
  | none => item.fail .malformedImport
  | some clause =>
      .ok {
        path := String.ofList clause.path
        localName := clause.localName.map String.ofList
        symbols := clause.symbols
        start := item.start.offset
        line := item.line }

end ImportDecl
end ContractDoc
