import ContractDoc.Entries
import ContractDoc.Text.Quoted
import ContractDoc.Text.Space
import ContractDoc.Text.Word

/-!
# NatSpec tags

A comment is divided into tags.  Text before the first tag is the notice.  The
descriptions of parameters are gathered in a table under the tag `params`.  A
line without a tag continues the entry before it, and a tag that is given again
keeps its earlier text.

The word `params` can also be written as a tag of its own.  Its entry is then a
text, which takes neither parameters nor further lines.
-/

namespace ContractDoc

open Text

/-- What stands under a tag. -/
inductive TagValue where
  | text (content : String)
  /-- Descriptions of parameters by their names. -/
  | table (descriptions : Entries String String)
  deriving DecidableEq, Repr

/-- What stands under a tag, written as a text. -/
def TagValue.asText : TagValue → String
  | text content => content
  | table descriptions =>
      "\x7b" ++ ", ".intercalate (descriptions.map fun (name, description) =>
        quotedString name ++ ": " ++ quotedString description) ++ "\x7d"

/-- The tags of a comment in the order of their first appearance. -/
abbrev NatSpec : Type := Entries String TagValue

namespace NatSpec

/-- The tag that holds the descriptions of parameters. -/
def paramsTag : String := "params"

/-- A comment cannot be divided into tags: it uses a text as a table of
parameters. -/
inductive Error where
  | paramsIsText
  deriving DecidableEq, Repr

/-- The entry that a line without a tag continues. -/
inductive Section where
  | tag (name : String)
  | param (name : String)
  deriving DecidableEq, Repr

/-- What has been read of a comment. -/
structure State where
  tags : NatSpec
  /-- There is none before the first line. -/
  current : Option Section
  deriving DecidableEq, Repr

/-- Whether a character may stand in the name of a tag. -/
def isTagChar (c : Char) : Bool :=
  isWordChar c || c == ':' || c == '-'

/-- The tag at the start of a line and the text behind it. -/
def tagLine? : List Char → Option (List Char × List Char)
  | '@' :: rest =>
      let name := rest.takeWhile isTagChar
      if name.isEmpty then none else some (name, skipSpace (rest.dropWhile isTagChar))
  | _ => none

/-- A text with one more line, trimmed. -/
def continued (content : String) (line : List Char) : String :=
  String.ofList (strip (content.toList ++ '\n' :: line))

/-- The table of parameters, which is empty if there is none yet. -/
def params (tags : NatSpec) : Except Error (Entries String String) :=
  match Entries.get? paramsTag tags with
  | none => .ok []
  | some (.table descriptions) => .ok descriptions
  | some (.text _) => .error .paramsIsText

/-- Sets the description of a parameter. -/
def setParam (tags : NatSpec) (name description : String) : Except Error NatSpec := do
  let descriptions ← params tags
  return Entries.insert paramsTag (.table (Entries.insert name description descriptions))
    tags

/-- Adds the text of a tag. -/
def addTag (tags : NatSpec) (name content : String) : NatSpec :=
  match Entries.get? name tags with
  | none => Entries.insert name (.text content) tags
  | some value =>
      Entries.insert name (.text (value.asText ++ "\n" ++ content)) tags

/-- Adds a line to the entry of a tag. -/
def continueTag (tags : NatSpec) (name : String) (line : List Char) :
    Except Error NatSpec :=
  if name = paramsTag then .error .paramsIsText
  else
    match Entries.get? name tags with
    | none => .ok (Entries.insert name (.text (String.ofList line)) tags)
    | some value =>
        .ok (Entries.insert name (.text (continued value.asText line)) tags)

/-- Adds a line to the description of a parameter. -/
def continueParam (tags : NatSpec) (name : String) (line : List Char) :
    Except Error NatSpec := do
  let description := (Entries.get? name (← params tags)).getD ""
  setParam tags name (continued description line)

/-- Reads a line. -/
def step (state : State) (line : List Char) : Except Error State :=
  match tagLine? line with
  | some (tag, content) =>
      if tag = "param".toList then do
        let (name, description) := cutAt ' ' content
        let name := String.ofList name
        return {
          tags := ← setParam state.tags name (String.ofList (strip description))
          current := some (.param name) }
      else
        .ok {
          tags := addTag state.tags (String.ofList tag) (String.ofList content)
          current := some (.tag (String.ofList tag)) }
  | none => do
      let current := state.current.getD (.tag "notice")
      let tags ← match current with
        | .tag name => continueTag state.tags name line
        | .param name => continueParam state.tags name line
      return ⟨tags, some current⟩

/-- The tags of a comment. -/
def ofText (comment : String) : Except Error NatSpec := do
  let state ← ((lines comment.toList).filter (!·.isEmpty)).foldlM step ⟨[], none⟩
  return state.tags

end NatSpec
end ContractDoc
