import ContractDoc.Text.Segment
import ContractDoc.Value.Display

/-!
# Summaries

A document in a few lines: the contract and its file, the parents, and the
members with the first lines of their notices.

A summary is made of any value in the form of a document.  It fails if some part
does not have the form that is needed there.
-/

namespace ContractDoc
namespace Summary

open Text

/-- Why a summary cannot be made. -/
inductive Error where
  /-- A map is needed, or a text, and something else is given. -/
  | wrongForm
  /-- A value without parts is used as a container. -/
  | noContainer
  /-- An entry is missing. -/
  | missingEntry (key : String)
  deriving DecidableEq, Repr

/-- The first line of a text. -/
def firstLine (text : String) : String :=
  String.ofList (text.toList.takeWhile (· != '\n'))

/-- The entries of a map. -/
def entriesOf : Value → Except Error (Entries String Value)
  | .map entries => .ok entries
  | _ => .error .wrongForm

/-- The entries under a key; there are none if the key is missing. -/
def entriesUnder (key : String) (entries : Entries String Value) :
    Except Error (Entries String Value) :=
  entriesOf ((Entries.get? key entries).getD (.map []))

/-- The entries of a part that is shown with its size; nothing is shown of an
empty part. -/
def partUnder (key : String) (entries : Entries String Value) :
    Except Error (Entries String Value) :=
  let part := (Entries.get? key entries).getD (.map [])
  if part.isTruthy then
    match part with
    | .bool _ | .int _ => .error .noContainer
    | part => entriesOf part
  else .ok []

/-- A line with the value of a key, unless it is missing or empty. -/
def lineFor (label key : String) (entries : Entries String Value) : List String :=
  match Entries.get? key entries with
  | none => []
  | some value => if value.isTruthy then [s!"  {label}: {value.display}"] else []

/-- The line of the title, unless it is the name. -/
def titleLine (contract : Entries String Value) : List String :=
  let title := (Entries.get? "title" contract).getD .null
  if title.same ((Entries.get? "name" contract).getD .null) then []
  else lineFor "Title" "title" contract

/-- The lines of a part, with its size in the first one. -/
def partLines (label : String) (lines : List String) : List String :=
  if lines.isEmpty then [] else s!"  {label} ({lines.length}):" :: lines

/-- The line of a parent. -/
def parentLine (name : String) (path : Value) : String :=
  let status := if path.isTruthy then path.display else "✗ UNRESOLVED"
  s!"    - {name} [{status}]"

/-- The lines of the constructor. -/
def constructorLines (contract : Entries String Value) : Except Error (List String) :=
  let constructor := (Entries.get? "constructor" contract).getD .null
  if constructor.isTruthy then
    match constructor with
    | .map entries =>
        match Entries.get? "name" entries with
        | some name => .ok ["  Constructor:", s!"    - {name.display}"]
        | none => .error (.missingEntry "name")
    | _ => .error .noContainer
  else .ok []

/-- The first line of the notice of a member. -/
def noticeOf (member : Value) : Except Error String := do
  let tags ← entriesUnder "natspec" (← entriesOf member)
  let notice := (Entries.get? "notice" tags).getD (.text "")
  if notice.isTruthy then
    match notice with
    | .text content => return firstLine content
    | _ => throw .wrongForm
  else return ""

/-- The line of a member. -/
def memberLine (name : String) (member : Value) : Except Error String := do
  let notice ← noticeOf member
  return s!"    - {name}" ++ if notice = "" then "" else ": " ++ notice

/-- The lines of a section. -/
def sectionLines (label key : String) (document : Entries String Value) :
    Except Error (List String) := do
  let members ← partUnder key document
  let lines ← members.mapM fun (name, member) => memberLine name member
  return partLines label lines

/-- The summary of a document. -/
def write (document : Value) : Except Error String := do
  let document ← entriesOf document
  let contract ← entriesUnder "contract" document
  let source ← entriesUnder "source" document
  let name := ((Entries.get? "name" contract).getD (.text "Unknown")).display
  let parents ← partUnder "parents" document
  let constructor ← constructorLines contract
  let events ← sectionLines "Events" "events" document
  let functions ← sectionLines "Functions" "functions" document
  let constantFunctions ← sectionLines "Constant Functions" "constantFunctions" document
  return "\n".intercalate (
    [s!"\nCONTRACT: {name}"] ++ titleLine contract ++ lineFor "Author" "author" contract ++
      lineFor "Pragma" "pragma" source ++
      partLines "Parents" (parents.map fun (name, path) => parentLine name path) ++
      constructor ++ events ++ functions ++ constantFunctions)

end Summary
end ContractDoc
