import ContractDoc.Entries

/-!
# Plain values

The data that can be written out: null, booleans, integers, texts, lists, and
maps whose keys are texts in a definite order.
-/

namespace ContractDoc

/-- Plain data. -/
inductive Value where
  | null
  | bool (flag : Bool)
  | int (number : Int)
  | text (content : String)
  | list (items : List Value)
  | map (entries : List (String × Value))
  deriving Repr, Inhabited

namespace Value

/-- The map with the given entries, a later one replacing an earlier one. -/
def ofEntries (entries : List (String × Value)) : Value :=
  map (Entries.ofList entries)

/-- A text, or null when there is none. -/
def ofText? : Option String → Value
  | none => null
  | some content => text content

/-- A natural number. -/
def ofNat (number : Nat) : Value :=
  int number

/-- The entry of a map under a key; other values have no entries. -/
def get? (key : String) : Value → Option Value
  | map entries => Entries.get? key entries
  | _ => none

/-- Whether a value is neither null, false, zero nor empty. -/
def isTruthy : Value → Bool
  | null => false
  | bool flag => flag
  | int number => number ≠ 0
  | text content => content ≠ ""
  | list items => !items.isEmpty
  | map entries => !entries.isEmpty

end Value
end ContractDoc
