import ContractDoc.Model.Traversal

/-!
# Documents

The document of a contract holds what is said about the contract and its file,
its parents, and its members in three sections.  Members of parents are merged
into the sections: later parents replace earlier ones, and the own members
replace all inherited ones.
-/

namespace ContractDoc

/-- The documented members of a contract by name. -/
structure Sections where
  events : Entries String TaggedBlock
  functions : Entries String TaggedBlock
  constantFunctions : Entries String TaggedBlock
  deriving DecidableEq, Repr

namespace Sections

/-- Sections without members. -/
def empty : Sections := ⟨[], [], []⟩

/-- Sections in which the members of `changes` replace those of the same name. -/
def overlay (base changes : Sections) : Sections where
  events := Entries.update base.events changes.events
  functions := Entries.update base.functions changes.functions
  constantFunctions := Entries.update base.constantFunctions changes.constantFunctions

end Sections

/-- The document of a contract. -/
structure Document where
  contract : ContractInfo
  source : SourceInfo
  parents : Entries String (Option String)
  sections : Sections
  deriving DecidableEq, Repr

namespace Document

/-- The members of a section as a map. -/
def sectionValue (blocks : Entries String TaggedBlock) : Value :=
  .map (blocks.map fun (name, block) => (name, block.toValue))

/-- A document as a map. -/
def toValue (document : Document) : Value :=
  .map [
    ("contract", .map document.contract.entries),
    ("source", .map document.source.entries),
    ("parents", .map (document.parents.map fun (name, path) => (name, .ofText? path))),
    ("events", sectionValue document.sections.events),
    ("functions", sectionValue document.sections.functions),
    ("constantFunctions", sectionValue document.sections.constantFunctions)]

end Document

/-- Divides the comments of blocks into tags. -/
def tagBlocks (blocks : Entries String Block) :
    Except Failure (Entries String TaggedBlock) :=
  blocks.mapM fun (name, block) => do
    return (name, ← block.tagged.mapError Failure.comment)

/-- The document of a contract without inherited members. -/
def Subject.document (subject : Subject) : Derive Document := do
  let contract ← subject.contractInfo
  let source ← subject.sourceInfo
  let parents ← subject.parents
  let events ← tagBlocks (← subject.events)
  let functions ← tagBlocks (← subject.functions)
  let constantFunctions ← tagBlocks (← subject.constantFunctions)
  return ⟨contract, source, parents, ⟨events, functions, constantFunctions⟩⟩

namespace Traversal

/-- The document of a model.  Inherited members are merged in if `merge` says so,
or by the choice of the model itself.  Parents are followed at most `depth`
levels up. -/
def document (resolver : ImportResolver) :
    (depth : Nat) → ModelRef → (merge : Option Bool) → Step Document
  | 0, _, _ => throw .tooDeep
  | depth + 1, ref, merge => do
      let own ← derive ref Subject.document
      if (merge <|> (← getModel ref).mergesParents).getD false then
        let parents ← derive ref Subject.parents
        let inherited ← parents.foldlM
          (fun inherited (name, path) =>
            match path with
            | none => return inherited
            | some path => do
                let parentRef ← parent resolver ref path name
                let parentDocument ← document resolver depth parentRef none
                return inherited.overlay parentDocument.sections)
          Sections.empty
        return { own with sections := inherited.overlay own.sections }
      else
        return own

/-- How many levels of parents the command follows.  More do not fit on a stack of the usual
size.  The theorems about runs hold for every other number as well. -/
def maxDepth : Nat := 488

end Traversal
end ContractDoc
