import ContractDoc.Notice
import ContractDoc.Tree.Contract
import ContractDoc.Tree.Import
import ContractDoc.Tree.Pragma

/-!
# Parsing a source file

A source text is blanked, split into items, and each item is read by its first
word.  `parse` gives the declarations; `parseNotices` lists the items that were
passed over until the end or the first error.
-/

namespace ContractDoc

open Text

namespace Declaration

/-- Reads an item at the top level; `none` when it is no documented declaration. -/
def read (item : Item) : Except ParseError (Option Declaration) :=
  let text := item.shown
  if startsWithWord "pragma".toList text then
    return some (.pragma (← PragmaDecl.ofItem item))
  else if startsWithWord "import".toList text then
    return some (.importing (← ImportDecl.ofItem item))
  else if (ContractDecl.opening? text).isSome then
    return some (.contract (← ContractDecl.ofItem item))
  else
    return none

end Declaration

/-- The items of a source file. -/
def topLevelItems (source : List Char) : Except ParseError (List Item) := do
  splitItems .origin (← glyphs source)

/-- The declarations of a source file. -/
def parse (source : String) : Except ParseError SourceUnit := do
  let items ← topLevelItems source.toList
  let declarations ← items.mapM Declaration.read
  return ⟨declarations.filterMap id⟩

/-- The notices of the items that `read` accepts, up to the first one that it
refuses. -/
def noticesUntilError {α : Type} (read : Item → Except ParseError α)
    (notices : Item → List Notice) : List Item → List Notice
  | [] => []
  | item :: items =>
      notices item ++
        match read item with
        | .error _ => []
        | .ok _ => noticesUntilError read notices items

/-- The notice of an item in the body of a contract. -/
def Member.notices (item : Item) : List Notice :=
  match Member.read item with
  | .ok .unrecognised => [.unrecognisedItem item.line]
  | _ => []

/-- The notices of a contract. -/
def ContractDecl.notices (item : Item) : List Notice :=
  match ContractDecl.open? item with
  | .error _ => []
  | .ok (_, items) => noticesUntilError Member.read Member.notices items

/-- The notices of an item at the top level. -/
def Declaration.notices (item : Item) : List Notice :=
  match Declaration.read item with
  | .ok none => [.skippedItem item.line]
  | .ok (some (.contract _)) => ContractDecl.notices item
  | .ok (some _) => []
  | .error _ =>
      if (ContractDecl.opening? item.shown).isSome then ContractDecl.notices item else []

/-- What there is to say about parsing a source file. -/
def parseNotices (source : String) : List Notice :=
  match topLevelItems source.toList with
  | .error _ => []
  | .ok items => noticesUntilError Declaration.read Declaration.notices items

end ContractDoc
