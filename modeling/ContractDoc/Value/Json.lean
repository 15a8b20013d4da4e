import ContractDoc.Text.Quoted
import ContractDoc.Value.Basic

/-!
# JSON

Values are written in ASCII.  The compact form stands on one line; the pretty
form gives each entry a line of its own, indented by two columns per level.
-/

namespace ContractDoc
namespace Json

open Text

/-- The escape of a unit of sixteen bits. -/
def unitEscape (unit : Nat) : List Char :=
  '\\' :: 'u' :: hexDigits 4 unit

/-- A character inside a string.  Those beyond sixteen bits are written as two
surrogates. -/
def stringChar (c : Char) : List Char :=
  if c = '"' ∨ c = '\\' then ['\\', c]
  else if c = '\n' then ['\\', 'n']
  else if c = '\r' then ['\\', 'r']
  else if c = '\t' then ['\\', 't']
  else if c.toNat = 0x0C then ['\\', 'f']
  else if c.toNat = 0x08 then ['\\', 'b']
  else if 0x20 ≤ c.toNat ∧ c.toNat < 0x7F then [c]
  else if c.toNat < 0x10000 then unitEscape c.toNat
  else
    let offset := c.toNat - 0x10000
    unitEscape (0xD800 + offset / 0x400) ++ unitEscape (0xDC00 + offset % 0x400)

/-- A text as a string. -/
def string (text : String) : List Char :=
  '"' :: (text.toList.flatMap stringChar ++ ['"'])

/-- How the entries of a container are set apart. -/
inductive Layout where
  | compact
  | pretty
  deriving DecidableEq, Repr

/-- The break before an entry at a level, or before the closing bracket. -/
def Layout.lineBreak (layout : Layout) (level : Nat) : List Char :=
  match layout with
  | compact => []
  | pretty => '\n' :: List.replicate (2 * level) ' '

/-- The separator before an entry at a level that is not the first one. -/
def Layout.comma (layout : Layout) (level : Nat) : List Char :=
  match layout with
  | compact => [',', ' ']
  | pretty => ',' :: layout.lineBreak level

mutual

/-- A value whose entries stand below the given level. -/
def render (layout : Layout) (level : Nat) : Value → List Char
  | .null => "null".toList
  | .bool true => "true".toList
  | .bool false => "false".toList
  | .int number => (toString number).toList
  | .text content => string content
  | .list [] => "[]".toList
  | .list (item :: items) =>
      '[' :: layout.lineBreak (level + 1) ++ render layout (level + 1) item ++
        renderItems layout (level + 1) items ++ layout.lineBreak level ++ [']']
  | .map [] => "\x7b\x7d".toList
  | .map (entry :: entries) =>
      '{' :: layout.lineBreak (level + 1) ++ renderEntry layout (level + 1) entry ++
        renderEntries layout (level + 1) entries ++ layout.lineBreak level ++ ['}']

/-- The items of a list behind the first one. -/
def renderItems (layout : Layout) (level : Nat) : List Value → List Char
  | [] => []
  | item :: items =>
      layout.comma level ++ render layout level item ++ renderItems layout level items

/-- An entry of a map. -/
def renderEntry (layout : Layout) (level : Nat) : String × Value → List Char
  | (key, value) => string key ++ [':', ' '] ++ render layout level value

/-- The entries of a map behind the first one. -/
def renderEntries (layout : Layout) (level : Nat) : List (String × Value) → List Char
  | [] => []
  | entry :: entries =>
      layout.comma level ++ renderEntry layout level entry ++
        renderEntries layout level entries

end

/-- The JSON text of a value. -/
def write (layout : Layout) (value : Value) : String :=
  String.ofList (render layout 0 value)

end Json
end ContractDoc
