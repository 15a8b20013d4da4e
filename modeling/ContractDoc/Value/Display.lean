import ContractDoc.Text.Quoted
import ContractDoc.Value.Basic

/-!
# Showing values inside a text

A text is shown as it is; inside a container it is quoted.  Two values are the
same if they show the same data, whatever the order of entries; a truth value is
the same as the number zero or one.
-/

namespace ContractDoc
namespace Value

open Text

mutual

/-- A value as it is shown inside a container. -/
def shown : Value → String
  | null => "None"
  | bool true => "True"
  | bool false => "False"
  | int number => toString number
  | text content => quotedString content
  | list items => "[" ++ ", ".intercalate (shownItems items) ++ "]"
  | map entries => "\x7b" ++ ", ".intercalate (shownEntries entries) ++ "\x7d"

/-- The items of a list. -/
def shownItems : List Value → List String
  | [] => []
  | item :: items => item.shown :: shownItems items

/-- An entry of a map. -/
def shownEntry : String × Value → String
  | (key, value) => quotedString key ++ ": " ++ value.shown

/-- The entries of a map. -/
def shownEntries : List (String × Value) → List String
  | [] => []
  | entry :: entries => shownEntry entry :: shownEntries entries

end

/-- A value as it is shown inside a text. -/
def display : Value → String
  | text content => content
  | value => value.shown

/-- The number that a value stands for. -/
def number? : Value → Option Int
  | bool flag => some (if flag then 1 else 0)
  | int number => some number
  | _ => none

mutual

/-- Whether two values are the same. -/
def same : Value → Value → Bool
  | null, null => true
  | null, _ => false
  | bool flag, other => other.number? == some (if flag then 1 else 0)
  | int number, other => other.number? == some number
  | text content, text other => content == other
  | text _, _ => false
  | list items, list others => sameItems items others
  | list _, _ => false
  | map entries, map others =>
      entries.length == others.length && sameEntries entries others
  | map _, _ => false

/-- Whether two lists have the same items. -/
def sameItems : List Value → List Value → Bool
  | [], others => others.isEmpty
  | item :: items, other :: others => same item other && sameItems items others
  | _ :: _, [] => false

/-- Whether an entry is the same in a map. -/
def sameEntry : String × Value → List (String × Value) → Bool
  | (key, value), others =>
      match Entries.get? key others with
      | some other => same value other
      | none => false

/-- Whether all entries are the same in a map. -/
def sameEntries : List (String × Value) → List (String × Value) → Bool
  | [], _ => true
  | entry :: entries, others => sameEntry entry others && sameEntries entries others

end

end Value
end ContractDoc
