import ContractDoc.Value.Basic
import ContractDoc.Value.Yaml.Scalar

/-!
# YAML documents

Values are written in block style.  The entries of a nested map are indented by
two columns; the items of a list under a key are not.  A key that is empty, long
or of several lines is set apart from its value by a question mark.
-/

namespace ContractDoc
namespace Yaml

/-- Whether a key can stand before a colon on one line. -/
def isSimpleKey (key : List Char) : Bool :=
  !key.isEmpty && !isMultiline key && key.length < 123

/-- A new line with an indentation. -/
def newLine (indent : Nat) : List Char :=
  '\n' :: List.replicate indent ' '

/-- A value that stands on the line of its key: a scalar or an empty container. -/
def inline (indent column : Nat) : Value → List Char
  | .null => "null".toList
  | .bool true => "true".toList
  | .bool false => "false".toList
  | .int number => (toString number).toList
  | .text content => scalar false indent column content.toList
  | .list _ => "[]".toList
  | .map _ => "\x7b\x7d".toList

/-- Where a value begins. -/
inductive Lead where
  /-- At the indentation of its block. -/
  | here
  /-- Behind a key whose colon ends before `column`. -/
  | afterKey (column : Nat)
  deriving DecidableEq, Repr

namespace Lead

/-- What stands between the place where a value begins and the items of a list. -/
def beforeItems (lead : Lead) (indent : Nat) : List Char :=
  match lead with
  | here => []
  | afterKey _ => newLine indent

/-- The indentation of the entries of a map. -/
def entryIndent (lead : Lead) (indent : Nat) : Nat :=
  match lead with
  | here => indent
  | afterKey _ => indent + 2

/-- What stands between the place where a value begins and the entries of a map. -/
def beforeEntries (lead : Lead) (indent : Nat) : List Char :=
  lead.beforeItems (lead.entryIndent indent)

/-- A value that stays on the line where it begins. -/
def inline (lead : Lead) (indent : Nat) (value : Value) : List Char :=
  match lead with
  | here => Yaml.inline indent indent value
  | afterKey column => ' ' :: Yaml.inline (indent + 2) (column + 1) value

end Lead

mutual

/-- A value in a block with an indentation. -/
def block (lead : Lead) (indent : Nat) : Value → List Char
  | .list (item :: items) =>
      lead.beforeItems indent ++ '-' :: ' ' :: block .here (indent + 2) item ++
        blockItems indent items
  | .map (entry :: entries) =>
      lead.beforeEntries indent ++ blockEntry (lead.entryIndent indent) entry ++
        blockEntries (lead.entryIndent indent) entries
  | .list [] => lead.inline indent (.list [])
  | .map [] => lead.inline indent (.map [])
  | .null => lead.inline indent .null
  | .bool flag => lead.inline indent (.bool flag)
  | .int number => lead.inline indent (.int number)
  | .text content => lead.inline indent (.text content)

/-- The items of a list behind the first one. -/
def blockItems (indent : Nat) : List Value → List Char
  | [] => []
  | item :: items =>
      newLine indent ++ '-' :: ' ' :: block .here (indent + 2) item ++
        blockItems indent items

/-- An entry of a map. -/
def blockEntry (indent : Nat) : String × Value → List Char
  | (key, value) =>
      if isSimpleKey key.toList then
        let written := scalar true (indent + 2) indent key.toList
        written ++ ':' :: block (.afterKey (indent + written.length + 1)) indent value
      else
        '?' :: ' ' :: scalar false (indent + 2) (indent + 2) key.toList ++
          newLine indent ++ ':' :: ' ' :: block .here (indent + 2) value

/-- The entries of a map behind the first one. -/
def blockEntries (indent : Nat) : List (String × Value) → List Char
  | [] => []
  | entry :: entries =>
      newLine indent ++ blockEntry indent entry ++ blockEntries indent entries

end

/-- Whether a value is written as a plain scalar. -/
def isPlain : Value → Bool
  | .null | .bool _ | .int _ => true
  | .text content => styleFor false content.toList = .plain
  | .list _ | .map _ => false

/-- The lines of a document.  A scalar is indented on its further lines, and a
plain one is followed by the mark that ends a document. -/
def document : Value → List Char
  | .text content => inline 2 0 (.text content)
  | value => block .here 0 value

/-- The YAML text of a value. -/
def write (value : Value) : String :=
  String.ofList (document value ++ '\n' :: if isPlain value then "...\n".toList else [])

end Yaml
end ContractDoc
